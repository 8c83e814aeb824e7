/-
# ImportAtlas.Script.Grammar.Expressions -- operands, operators and patterns

A primary expression is one that may stand before a dot. Objects and arrays are read both as values
and as patterns until an equals sign or the end of the statement tells which they were.
-/
import ImportAtlas.Script.Rule

namespace ImportAtlas.Script.Grammar

open Rule Phrase

/-- A name, soft keywords included. -/
def looseName : Rule := .choice [Token.name, softKeyword]

/-- Places divided by commas, any of which may be empty. -/
def places (rules : List Rule) : Rule := opt [commas (opt [.choice rules])]

/-- Operators between two operands, with the level of each. -/
def binaryOperators : List (String × Rank) :=
  [("&&", .logicalAnd), ("||", .logicalOr), (">>", .shift), (">>>", .shift), ("<<", .shift),
   ("&", .bitAnd), ("^", .bitXor), ("|", .bitOr), ("+", .plus), ("-", .plus), ("*", .times),
   ("/", .times), ("%", .times), ("<", .relation), ("<=", .relation), ("==", .equality),
   ("===", .equality), ("!=", .equality), ("!==", .equality), (">=", .relation),
   (">", .relation), ("??", .ternary), ("instanceof", .relation), ("in", .relation)]

/-- Operators that assign the result of another operator. -/
def updateOperators : List String :=
  ["+=", "-=", "*=", "/=", "%=", "^=", "&=", "|=", ">>=", ">>>=", "<<=", "**=", "&&=", "||=",
   "??="]

/-- Expressions by what they are made of. -/
def expressionForms (flavor : Flavor) : Rules :=
  [(expressions, .choice [expression, sequenceExpression]),
   (expression, .choice (List.map .phrase
     ([asExpression, satisfiesExpression, instantiationExpression, internalModule] ++
      (if flavor = .plain then [typeAssertion] else []) ++
      [primaryExpression] ++
      (if flavor = .markup then [elementForm, fragment] else []) ++
      [assignmentExpression, augmentedAssignment, awaitExpression, unaryExpression,
       binaryExpression, ternaryExpression, updateExpression, newExpression,
       yieldExpression]))),
   (primaryExpression, .choice
     [subscriptExpression, memberExpression, parenthesizedExpression, plainIdentifier,
      softKeyword, "this", "super", Token.number, Token.text, templateString, regularExpression,
      "true", "false", "null", importKeyword, object, array, functionExpression, arrowFunction,
      generatorExpression, classExpression, metaProperty, callExpression, nonNullExpression]),
   (sequenceExpression, .seq [expression, ",", .choice [sequenceExpression, expression]]),
   (parenthesizedExpression, parenthesized
     [.choice [.seq [expression, opt [typeNote]], sequenceExpression]])]

/-- Operators. -/
def operations (flavor : Flavor) : Rules :=
  [(yieldExpression, right ["yield", .choice [.seq ["*", expression], opt [expression]]]),
   (awaitExpression, ranked .unaryWord ["await", expression]),
   (unaryExpression, leftRanked .unaryWord
     [oneOf ["!", "~", "-", "+", "typeof", "void", "delete"], expression]),
   (updateExpression, left
     [.choice [.seq [expression, oneOf ["++", "--"]], .seq [oneOf ["++", "--"], expression]]]),
   (binaryExpression, .choice
     (rightRanked .power [expression, "**", expression] ::
      binaryOperators.map fun (o, rank) =>
        leftRanked rank [expression, .token (.ofText o), expression])),
   (ternaryExpression, rightRanked .ternary
     [expression, Token.question, expression, ":", expression]),
   (assignmentExpression, rightRanked .assign
     [.choice [parenthesizedExpression, target], "=", expression]),
   (augmentedAssignment, rightRanked .assign [updateTarget, oneOf updateOperators, expression]),
   (asExpression, leftRanked .binary [expression, "as", .choice ["const", type]]),
   (satisfiesExpression, leftRanked .binary [expression, "satisfies", type]),
   (instantiationExpression, ranked .instantiation [expression, typeArguments]),
   (nonNullExpression, leftRanked .unary [expression, "!"])] ++
  if flavor = .plain then
    [(typeAssertion, leftRanked .unary [typeArguments, expression])]
  else []

/-- Calls and accesses. A dynamic import is a call of the word `import`. -/
def accesses : Rules :=
  [(callExpression, .choice
     [ranked .call
        [.play .function expression, opt [typeArguments],
         .play .arguments (.choice [arguments, templateString])],
      ranked .member
        [.play .function primaryExpression, "?.", opt [typeArguments],
         .play .arguments arguments]]),
   (newExpression, rightRanked .construct
     ["new", primaryExpression, opt [typeArguments], opt [arguments]]),
   (memberExpression, ranked .member
     [.choice [expression, primaryExpression], oneOf [".", "?."],
      .choice [Token.privateName, Token.name]]),
   (subscriptExpression, rightRanked .member
     [.choice [expression, primaryExpression], opt ["?."], "[", expressions, "]"]),
   (arguments, parenthesized [places [expression, spreadElement]]),
   (metaProperty, .seq ["new", ".", "target"])]

/-- Literals. -/
def literals : Rules :=
  [(object, .bind (.rank .object) none
     (braced [places [pair, spreadElement, methodDefinition, looseName]])),
   (pair, .seq [propertyName, ":", expression]),
   (propertyName, .choice
     [looseName, Token.privateName, Token.text, Token.number, computedName]),
   (computedName, bracketed [expression]),
   (array, bracketed [places [expression, spreadElement]]),
   (spreadElement, .seq ["...", expression]),
   (templateString, .seq ["`",
      many (.choice [Token.templateText, Token.escape, templateSubstitution]), "`"]),
   (templateSubstitution, .seq ["$\x7b", expressions, closeBrace]),
   (regularExpression, .seq
     ["/", Token.patternBody, Token.patternEnd, opt [Token.patternFlags]])]

/-- What can be assigned to, and patterns that take values apart. -/
def patterns : Rules :=
  [(target, .choice
     [memberExpression, subscriptExpression, plainIdentifier, softKeyword, destructuringPattern,
      nonNullExpression]),
   (updateTarget, .choice
     [memberExpression, subscriptExpression, softKeyword, Token.name, parenthesizedExpression,
      nonNullExpression]),
   (initializer, .seq ["=", expression]),
   (pattern, .weigh (-1) (.choice [target, restPattern])),
   (restPattern, right ["...", target]),
   (destructuringPattern, .choice [objectPattern, arrayPattern]),
   (objectPattern, .bind (.rank .object) none
     (braced [places [pairPattern, restPattern, objectAssignmentPattern, looseName]])),
   (pairPattern, .seq [propertyName, ":", .choice [pattern, assignmentPattern]]),
   (arrayPattern, bracketed [places [pattern, assignmentPattern]]),
   (assignmentPattern, .seq [pattern, "=", expression]),
   (objectAssignmentPattern, .seq [.choice [looseName, destructuringPattern], "=", expression])]

end ImportAtlas.Script.Grammar
