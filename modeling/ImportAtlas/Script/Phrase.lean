/-
# ImportAtlas.Script.Phrase -- the constructs of a script

Every construct the grammar knows has a name. The order of the constructors is the order in which
readings of the same length are tried, so that of two equally good readings the one with the earlier
phrase comes first.

Most phrases become nodes of the tree. Those that only sort others into groups, or that stand for a
part of a construct, leave their nodes to the phrase around them.
-/
import ImportAtlas.Script.Node

namespace ImportAtlas.Script

/-- The two dialects of the language: with type assertions in angle brackets, or with markup. -/
inductive Flavor where
  | plain
  | markup
  deriving DecidableEq, Repr, Inhabited

/-- A construct of the grammar. -/
inductive Phrase where
  | program
  | exportStatement
  | namespaceExport
  | exportClause
  | exportSpecifier
  | exportName
  | declaration
  | importKeyword
  | importStatement
  | importClause
  | fromClause
  | namespaceImport
  | namedImports
  | importSpecifier
  | statement
  | expressionStatement
  | variableDeclaration
  | lexicalDeclaration
  | variableDeclarator
  | statementBlock
  | elseClause
  | ifStatement
  | switchStatement
  | forStatement
  | forInStatement
  | forHeader
  | whileStatement
  | doStatement
  | tryStatement
  | withStatement
  | breakStatement
  | continueStatement
  | debuggerStatement
  | returnStatement
  | throwStatement
  | emptyStatement
  | labeledStatement
  | switchBody
  | switchCase
  | switchDefault
  | catchClause
  | finallyClause
  | parenthesizedExpression
  | expressions
  | expression
  | primaryExpression
  | yieldExpression
  | object
  | objectPattern
  | assignmentPattern
  | objectAssignmentPattern
  | array
  | arrayPattern
  | element
  | fragment
  | embeddedExpression
  | elementChild
  | openingTag
  | tagWord
  | nestedName
  | qualifiedTagName
  | tagName
  | closingTag
  | selfClosingTag
  | tagAttribute
  | plainAttribute
  | attributeName
  | attributeValue
  | tagStart
  | elementForm
  | classExpression
  | classDeclaration
  | classHeritage
  | functionExpression
  | functionDeclaration
  | generatorExpression
  | generatorDeclaration
  | arrowFunction
  | signature
  | formalParameter
  | callExpression
  | newExpression
  | awaitExpression
  | memberExpression
  | subscriptExpression
  | target
  | assignmentExpression
  | updateTarget
  | augmentedAssignment
  | initializer
  | destructuringPattern
  | spreadElement
  | ternaryExpression
  | binaryExpression
  | unaryExpression
  | updateExpression
  | sequenceExpression
  | templateString
  | templateSubstitution
  | regularExpression
  | metaProperty
  | arguments
  | decorator
  | decoratorMember
  | decoratorCall
  | classBody
  | formalParameters
  | classStaticBlock
  | pattern
  | restPattern
  | methodDefinition
  | pair
  | pairPattern
  | propertyName
  | computedName
  | softKeyword
  | plainIdentifier
  | semicolon
  | fieldDefinition
  | nonNullExpression
  | methodSignature
  | abstractMethodSignature
  | functionSignature
  | typeAssertion
  | asExpression
  | satisfiesExpression
  | instantiationExpression
  | importedName
  | importRequireClause
  | extendsClause
  | extendsItem
  | implementsClause
  | ambientDeclaration
  | abstractClassDeclaration
  | moduleDeclaration
  | internalModule
  | moduleShape
  | importAlias
  | nestedTypeName
  | interfaceDeclaration
  | extendsTypeClause
  | enumDeclaration
  | enumBody
  | enumAssignment
  | typeAliasDeclaration
  | accessibilityModifier
  | overrideModifier
  | requiredParameter
  | optionalParameter
  | parameterName
  | omittingTypeNote
  | optingTypeNote
  | typeNote
  | assertion
  | type
  | tupleParameter
  | optionalTupleParameter
  | optionalType
  | restType
  | tupleMember
  | constructorType
  | primaryType
  | templateType
  | templateLiteralType
  | inferType
  | conditionalType
  | genericType
  | typePredicate
  | typePredicateNote
  | typeQueryMember
  | typeQuerySubscript
  | typeQueryCall
  | typeQueryInstantiation
  | typeQuery
  | indexTypeQuery
  | lookupType
  | mappedTypeClause
  | literalType
  | signedNumber
  | starType
  | maybeType
  | parenthesizedType
  | predefinedType
  | typeArguments
  | objectType
  | callSignature
  | propertySignature
  | typeParameters
  | typeParameter
  | defaultType
  | constraint
  | constructSignature
  | indexSignature
  | arrayType
  | tupleType
  | readonlyType
  | unionType
  | intersectionType
  | functionType
  deriving DecidableEq, Inhabited

namespace Phrase

/-- The place of a phrase in the list of all of them. -/
def index (p : Phrase) : Nat := p.ctorIdx

instance : Hashable Phrase := ⟨fun p => hash p.index⟩

/-- What kind of node a phrase becomes; none for a phrase that leaves its nodes to the one around
it. -/
def kind? : Phrase → Option Kind
  | importStatement => some .importStatement
  | callExpression | decoratorCall | typeQueryCall => some .call
  | importKeyword => some .importKeyword
  | arguments => some .arguments
  | statement | declaration | expression | primaryExpression | pattern | type | primaryType => none
  | exportName | importedName | fromClause | forHeader | expressions | target | updateTarget => none
  | initializer | destructuringPattern | propertyName | softKeyword | plainIdentifier => none
  | semicolon | signature | formalParameter | parameterName | moduleShape | extendsItem => none
  | tupleMember | elementChild | tagWord | tagName | tagAttribute | attributeName => none
  | attributeValue | tagStart | elementForm => none
  | _ => some .other

end Phrase

end ImportAtlas.Script
