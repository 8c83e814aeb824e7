/-
# ImportAtlas.Script.Grammar.Types -- types and the declarations that name them

A primary type is one that may stand before a bracket. A type query asks for the type of an expression
of a narrow form; it may call the word `import`, and that call names a file like any other.
-/
import ImportAtlas.Script.Rule

namespace ImportAtlas.Script.Grammar

open Rule Phrase

/-- What a type query can go on from with a dot or a bracket. -/
def queryBase : Rule :=
  .choice [Token.name, "this", typeQuerySubscript, typeQueryMember, typeQueryCall]

/-- What a type query can apply. -/
def queryFunction : Rule :=
  .choice [importKeyword, Token.name, typeQueryMember, typeQuerySubscript]

/-- Declarations of types. -/
def typeDeclarations : Rules :=
  [(interfaceDeclaration, .seq
     ["interface", Token.name, opt [typeParameters], opt [extendsTypeClause], objectType]),
   (extendsTypeClause, .seq
     ["extends", commas (.choice [Token.name, nestedTypeName, genericType])]),
   (enumDeclaration, .seq [opt ["const"], "enum", Token.name, enumBody]),
   (enumBody, braced [opt [commas (.choice [propertyName, enumAssignment]), opt [","]]]),
   (enumAssignment, .seq [propertyName, initializer]),
   (typeAliasDeclaration, .seq
     ["type", Token.name, opt [typeParameters], "=", type, semicolon]),
   (typeParameters, .seq ["<", commas typeParameter, opt [","], ">"]),
   (typeParameter, .seq [opt ["const"], Token.name, opt [constraint], opt [defaultType]]),
   (constraint, .seq [oneOf ["extends", ":"], type]),
   (defaultType, .seq ["=", type])]

/-- Where a type is stated. -/
def typeNotes : Rules :=
  [(typeNote, .seq [":", type]),
   (omittingTypeNote, .seq ["-?:", type]),
   (optingTypeNote, .seq ["?:", type]),
   (assertion, .seq [":", "asserts", .choice [typePredicate, Token.name, "this"]]),
   (typePredicate, .seq [.choice [Token.name, "this", predefinedType], "is", type]),
   (typePredicateNote, .seq [":", typePredicate]),
   (typeArguments, .seq ["<", commas type, opt [","], ">"])]

/-- Types by what they are made of. -/
def typeForms : Rules :=
  [(type, .choice
     [primaryType, unionType, intersectionType, functionType, readonlyType, constructorType,
      inferType]),
   (primaryType, .choice
     [parenthesizedType, predefinedType, Token.name, nestedTypeName, genericType, objectType,
      arrayType, tupleType, maybeType, typeQuery, indexTypeQuery, "this", starType, literalType,
      lookupType, conditionalType, templateLiteralType]),
   (unionType, left [opt [type], "|", type]),
   (intersectionType, left [opt [type], "&", type]),
   (functionType, left
     [opt [typeParameters], formalParameters, "=>", .choice [type, typePredicate]]),
   (constructorType, left
     [opt ["abstract"], "new", opt [typeParameters], formalParameters, "=>", type]),
   (readonlyType, .seq ["readonly", type]),
   (inferType, right ["infer", Token.name, opt ["extends", type]]),
   (conditionalType, right [type, "extends", type, "?", type, ":", type]),
   (parenthesizedType, parenthesized [type]),
   (predefinedType, .choice
     [oneOf ["any", "number", "boolean", "string", "symbol"], .seq ["unique", "symbol"],
      oneOf ["void", "unknown", "never", "object"]]),
   (nestedTypeName, ranked .member [.choice [Token.name, nestedName], ".", Token.name]),
   (genericType, ranked .call [.choice [Token.name, nestedTypeName], typeArguments]),
   (arrayType, .seq [primaryType, "[", "]"]),
   (lookupType, .seq [primaryType, "[", type, "]"]),
   (maybeType, right ["?", primaryType]),
   (starType, "*"),
   (indexTypeQuery, .seq ["keyof", primaryType]),
   (literalType, .choice
     [signedNumber, Token.number, Token.text, "true", "false", "null", "undefined"]),
   (signedNumber, .bind (.number 1) (some .left) (.seq [oneOf ["-", "+"], Token.number])),
   (templateLiteralType, .seq ["`", many (.choice [Token.templateText, templateType]), "`"]),
   (templateType, .seq ["$\x7b", .choice [primaryType, inferType], closeBrace])]

/-- Tuples. -/
def tuples : Rules :=
  [(tupleType, bracketed [opt [commas tupleMember], opt [","]]),
   (tupleMember, .choice
     [tupleParameter, optionalTupleParameter, optionalType, restType, type]),
   (tupleParameter, .seq [.choice [Token.name, restPattern], typeNote]),
   (optionalTupleParameter, .seq [Token.name, "?", typeNote]),
   (optionalType, .seq [type, "?"]),
   (restType, .seq ["...", type])]

/-- Types of objects and their members. -/
def objectTypes : Rules :=
  [(objectType, .seq
     [oneOf ["\x7b", "\x7b|"],
      opt
        [opt [oneOf [",", ";"]],
         divided (.choice [",", semicolon])
           (.choice
             [exportStatement, propertySignature, callSignature, constructSignature,
              indexSignature, methodSignature]),
         opt [.choice [",", semicolon]]],
      oneOf ["\x7d", "|\x7d"]]),
   (callSignature, signature),
   (propertySignature, .seq
     [opt [accessibilityModifier], opt ["static"], opt [overrideModifier], opt ["readonly"],
      propertyName, opt ["?"], opt [typeNote]]),
   (constructSignature, .seq
     [opt ["abstract"], "new", opt [typeParameters], formalParameters, opt [typeNote]]),
   (indexSignature, .seq
     [opt [opt ["-"], "readonly"],
      bracketed
        [.choice [.seq [.choice [Token.name, softKeyword], ":", type], mappedTypeClause]],
      .choice [typeNote, omittingTypeNote, optingTypeNote]]),
   (mappedTypeClause, .seq [Token.name, "in", type, opt ["as", type]])]

/-- Type queries. -/
def typeQueries : Rules :=
  [(typeQuery, right
     ["typeof",
      .choice
        [typeQuerySubscript, typeQueryMember, typeQueryCall, typeQueryInstantiation, Token.name,
         "this"]]),
   (typeQueryMember, .seq
     [queryBase, oneOf [".", "?."], .choice [Token.privateName, Token.name]]),
   (typeQuerySubscript, .seq
     [queryBase, opt ["?."], "[", .choice [predefinedType, Token.text, Token.number], "]"]),
   (typeQueryCall, .seq [.play .function queryFunction, .play .arguments arguments]),
   (typeQueryInstantiation, .seq [queryFunction, typeArguments])]

end ImportAtlas.Script.Grammar
