/-
# ImportAtlas.Script.Grammar.Classes -- functions, classes and their members

A member without a body may end where a semicolon is left out, but not before a brace on the next
line, because then that brace opens the body.
-/
import ImportAtlas.Script.Rule

namespace ImportAtlas.Script.Grammar

open Rule Phrase

/-- What a class is made of behind its name. -/
def classTail : List Rule := [opt [typeParameters], opt [classHeritage], classBody]

/-- What may stand before the name of a method. -/
def methodMarks : List Rule :=
  [opt [accessibilityModifier], opt ["static"], opt [overrideModifier], opt ["readonly"],
   opt ["async"], opt [oneOf ["get", "set", "*"]]]

/-- A method from its name on, without its body. -/
def methodHead : List Rule := [propertyName, opt ["?"], signature]

/-- Functions. -/
def functions : Rules :=
  [(functionExpression, ranked .literal
     [opt ["async"], "function", opt [Token.name], signature, statementBlock]),
   (functionDeclaration, rightRanked .declare
     [opt ["async"], "function", Token.name, signature, statementBlock, opt [Token.lineEnd]]),
   (generatorExpression, ranked .literal
     [opt ["async"], "function", "*", opt [Token.name], signature, statementBlock]),
   (generatorDeclaration, rightRanked .declare
     [opt ["async"], "function", "*", Token.name, signature, statementBlock,
      opt [Token.lineEnd]]),
   (functionSignature, .seq
     [opt ["async"], "function", Token.name, signature,
      .choice [semicolon, Token.signatureEnd]]),
   (arrowFunction, .seq
     [opt ["async"], .choice [.choice [softKeyword, Token.name], signature], "=>",
      .choice [expression, statementBlock]]),
   (signature, .seq
     [opt [typeParameters], formalParameters,
      opt [.choice [typeNote, assertion, typePredicateNote]]]),
   (formalParameters, parenthesized [opt [commas formalParameter, opt [","]]]),
   (formalParameter, .choice [requiredParameter, optionalParameter]),
   (requiredParameter, .seq [parameterName, opt [typeNote], opt [initializer]]),
   (optionalParameter, .seq [parameterName, "?", opt [typeNote], opt [initializer]]),
   (parameterName, .seq
     [many decorator, opt [accessibilityModifier], opt [overrideModifier], opt ["readonly"],
      .choice [pattern, "this"]])]

/-- Classes. -/
def classes : Rules :=
  [(classExpression, ranked .literal
     ([many decorator, "class", opt [Token.name]] ++ classTail)),
   (classDeclaration, leftRanked .declare
     ([many decorator, "class", .token .name] ++ classTail ++ [opt [Token.lineEnd]])),
   (abstractClassDeclaration, ranked .declare
     ([many decorator, "abstract", "class", .token .name] ++ classTail)),
   (classHeritage, .choice
     [.seq [extendsClause, opt [implementsClause]], implementsClause]),
   (extendsClause, .seq ["extends", commas extendsItem]),
   (extendsItem, ranked .extend [expression, opt [typeArguments]]),
   (implementsClause, .seq ["implements", commas type]),
   (classBody, braced
     [many (.choice
        [decorator,
         .seq [methodDefinition, opt [semicolon]],
         .seq [methodSignature, .choice [Token.signatureEnd, ","]],
         classStaticBlock,
         .seq
           [.choice [abstractMethodSignature, indexSignature, methodSignature, fieldDefinition],
            .choice [semicolon, ","]]])]),
   (classStaticBlock, .seq ["static", statementBlock])]

/-- Members of classes. -/
def members : Rules :=
  [(fieldDefinition, .seq
     [opt ["declare"], opt [accessibilityModifier],
      .choice
        [.seq [opt ["static"], opt [overrideModifier], opt ["readonly"]],
         .seq [opt ["abstract"], opt ["readonly"]],
         .seq [opt ["readonly"], opt ["abstract"]]],
      propertyName, opt [oneOf ["?", "!"]], opt [typeNote], opt [initializer]]),
   (methodDefinition, left (methodMarks ++ methodHead ++ [.phrase statementBlock])),
   (methodSignature, .seq (methodMarks ++ methodHead)),
   (abstractMethodSignature, .seq
     ([opt [accessibilityModifier], "abstract", opt [oneOf ["get", "set", "*"]]] ++ methodHead)),
   (accessibilityModifier, oneOf ["public", "private", "protected"]),
   (overrideModifier, "override"),
   (decorator, .seq ["@", .choice [Token.name, decoratorMember, decoratorCall]]),
   (decoratorMember, ranked .member [.choice [Token.name, decoratorMember], ".", Token.name]),
   (decoratorCall, ranked .call
     [.choice [Token.name, decoratorMember], opt [typeArguments], arguments])]

end ImportAtlas.Script.Grammar
