/-
# ImportAtlas.Script.Grammar -- the whole grammar

The rules of both flavors, the phrases that stand for nothing but their parts, and the ladders by
which levels are compared. A ladder lists what binds more strongly first. It may name phrases beside
levels: a reading stands on the rung of its own phrase too.
-/
import ImportAtlas.Script.Grammar.Classes
import ImportAtlas.Script.Grammar.Expressions
import ImportAtlas.Script.Grammar.Markup
import ImportAtlas.Script.Grammar.Modules
import ImportAtlas.Script.Grammar.Statements
import ImportAtlas.Script.Grammar.Types

namespace ImportAtlas.Script

/-- One rung of a ladder. -/
inductive Rung where
  | rank (r : Rank)
  | phrase (p : Phrase)
  deriving DecidableEq, Inhabited

/-- A grammar: the rule of every phrase, and how its readings are compared. -/
structure Grammar where
  /-- The phrase that covers a whole text. -/
  start : Phrase
  rules : Rules
  /-- Phrases that are replaced by their rules wherever they stand, each after those it mentions. -/
  inlined : List Phrase
  ladders : List (List Rung)
  deriving Inhabited

namespace Grammar

open Phrase

/-- How strongly things bind, compared pair by pair. -/
def bindingOrder : List (List Rung) :=
  [[.rank .member, .rank .call, .phrase .updateExpression, .rank .unaryWord, .rank .power,
    .rank .times, .rank .plus, .rank .shift, .rank .relation, .rank .equality, .rank .bitAnd,
    .rank .bitXor, .rank .bitOr, .rank .logicalAnd, .rank .logicalOr, .rank .ternary,
    .phrase .sequenceExpression, .phrase .arrowFunction],
   [.rank .assign, .phrase .primaryExpression],
   [.rank .member, .rank .construct, .rank .call, .phrase .expression],
   [.rank .declare, .rank .literal],
   [.phrase .primaryExpression, .phrase .statementBlock, .rank .object],
   [.phrase .importStatement, .phrase .importKeyword],
   [.phrase .exportStatement, .phrase .primaryExpression],
   [.rank .call, .rank .instantiation, .rank .unary, .rank .binary, .phrase .awaitExpression,
    .phrase .arrowFunction],
   [.rank .extend, .rank .instantiation],
   [.phrase .intersectionType, .phrase .unionType, .phrase .conditionalType,
    .phrase .functionType, .rank .binary, .phrase .typePredicate, .phrase .readonlyType],
   [.phrase .mappedTypeClause, .phrase .primaryExpression],
   [.phrase .accessibilityModifier, .phrase .primaryExpression],
   [.rank .unaryWord, .phrase .expression],
   [.phrase .extendsClause, .phrase .primaryExpression],
   [.rank .unary, .rank .assign],
   [.rank .declare, .phrase .expression],
   [.phrase .predefinedType, .phrase .unaryExpression],
   [.phrase .type, .phrase .maybeType],
   [.phrase .tupleType, .phrase .arrayType, .phrase .pattern, .phrase .type],
   [.phrase .readonlyType, .phrase .pattern],
   [.phrase .readonlyType, .phrase .primaryExpression],
   [.phrase .typeQuery, .phrase .subscriptExpression, .phrase .expression],
   [.phrase .typeQuery, .phrase .typeQuerySubscript],
   [.phrase .nestedTypeName, .phrase .genericType, .phrase .primaryType, .phrase .lookupType,
    .phrase .indexTypeQuery, .phrase .type],
   [.phrase .asExpression, .phrase .satisfiesExpression, .phrase .primaryType],
   [.phrase .typeQueryMember, .phrase .memberExpression],
   [.phrase .typeQueryMember, .phrase .primaryExpression],
   [.phrase .typeQuerySubscript, .phrase .subscriptExpression],
   [.phrase .typeQuerySubscript, .phrase .primaryExpression],
   [.phrase .typeQueryCall, .phrase .primaryExpression],
   [.phrase .typeQueryInstantiation, .phrase .primaryExpression],
   [.phrase .typeQuery, .phrase .primaryExpression],
   [.phrase .overrideModifier, .phrase .primaryExpression],
   [.phrase .decoratorCall, .phrase .decorator],
   [.phrase .literalType, .phrase .pattern],
   [.phrase .predefinedType, .phrase .pattern],
   [.phrase .callExpression, .phrase .typeQueryCall]]

/-- The grammar of a flavor. -/
def ofFlavor (flavor : Flavor) : Grammar where
  start := program
  rules :=
    exports ++ imports ++ modules ++ statements ++ branches ++ loops ++ expressionForms flavor ++
      operations flavor ++ accesses ++ literals ++ patterns ++ functions ++ classes ++ members ++
      typeDeclarations ++ typeNotes ++ typeForms ++ tuples ++ objectTypes ++ typeQueries ++
      (if flavor = .markup then elements else [])
  inlined :=
    [expressions, semicolon, plainIdentifier, softKeyword, target] ++
      (if flavor = .markup then
        [tagWord, tagName, elementForm, elementChild, tagAttribute, attributeName, attributeValue,
         tagStart]
      else [])
  ladders := bindingOrder

end Grammar

end ImportAtlas.Script
