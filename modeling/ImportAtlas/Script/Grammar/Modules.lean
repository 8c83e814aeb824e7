/-
# ImportAtlas.Script.Grammar.Modules -- what a script takes in and gives out

Import and export statements, module declarations and aliases of names in other modules.
-/
import ImportAtlas.Script.Rule

namespace ImportAtlas.Script.Grammar

open Rule Phrase

/-- Words that are keywords in some places and names in most. -/
def softKeywords : List String :=
  ["declare", "namespace", "type", "public", "private", "protected", "override", "readonly",
   "module", "any", "number", "boolean", "string", "symbol", "object", "export", "get", "set",
   "async", "static"]

/-- What marks one imported or exported thing as a type. -/
def typeMark : Rule := opt [oneOf ["type", "typeof"]]

/-- Exports. -/
def exports : Rules :=
  [(exportStatement, .choice
     [.seq ["export",
        .choice
          [.seq ["*", fromClause],
           .seq [namespaceExport, fromClause],
           .seq [exportClause, fromClause],
           exportClause],
        semicolon],
      .seq [many decorator, "export",
        .choice
          [declaration,
           .seq ["default", .choice [declaration, .seq [expression, semicolon]]]]],
      .seq ["export", "type", exportClause, opt [fromClause], semicolon],
      .seq ["export", "import", importAlias],
      .seq ["export", "=", expression, semicolon],
      .seq ["export", "as", "namespace", Token.name, semicolon]]),
   (namespaceExport, .seq ["*", "as", exportName]),
   (exportClause, braced [opt [commas exportSpecifier], opt [","]]),
   (exportSpecifier, .seq [typeMark, exportName, opt ["as", exportName]]),
   (exportName, .choice [Token.name, Token.text])]

/-- Imports. The source of an import statement is the text it takes things from. -/
def imports : Rules :=
  [(importKeyword, "import"),
   (importStatement, .seq ["import", typeMark,
      .choice
        [.seq [importClause, fromClause],
         importRequireClause,
         .play .source Token.text],
      semicolon]),
   (fromClause, .seq ["from", .play .source Token.text]),
   (importClause, .choice
     [namespaceImport,
      namedImports,
      .seq [importedName, opt [",", .choice [namespaceImport, namedImports]]]]),
   (namespaceImport, .seq ["*", "as", Token.name]),
   (namedImports, braced [opt [commas importSpecifier], opt [","]]),
   (importSpecifier, .seq [typeMark,
      .choice
        [importedName,
         .seq [.choice [exportName, "type"], "as", importedName]]]),
   (importedName, .choice [Token.name, "type"]),
   (importRequireClause, .seq [Token.name, "=", "require", "(", Token.text, ")"]),
   (importAlias, .seq ["import", Token.name, "=", .choice [Token.name, nestedName], semicolon])]

/-- Modules inside a script, and declarations of what exists elsewhere. -/
def modules : Rules :=
  [(moduleDeclaration, .seq ["module", moduleShape]),
   (internalModule, .seq ["namespace", moduleShape]),
   (moduleShape, right [.choice [Token.text, Token.name, nestedName], opt [statementBlock]]),
   (ambientDeclaration, .seq ["declare",
      .choice
        [declaration,
         .seq ["global", statementBlock],
         .seq ["module", ".", Token.name, ":", type, semicolon]]]),
   (nestedName, ranked .member [.choice [Token.name, nestedName], ".", Token.name]),
   (softKeyword, oneOf softKeywords),
   (plainIdentifier, .choice ["undefined", Token.name]),
   (semicolon, .choice [Token.lineEnd, ";"])]

end ImportAtlas.Script.Grammar
