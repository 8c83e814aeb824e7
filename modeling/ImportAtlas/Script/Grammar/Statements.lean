/-
# ImportAtlas.Script.Grammar.Statements -- statements and declarations

The constructs a script is a list of. A block and a few declarations may be followed by a place where
a semicolon is left out, which then belongs to them.
-/
import ImportAtlas.Script.Rule

namespace ImportAtlas.Script.Grammar

open Rule Phrase

/-- Places where names come up: a single name, or a pattern of them. -/
def binding : Rule := .choice [Token.name, destructuringPattern]

/-- The whole script, and the statements it consists of. -/
def statements : Rules :=
  [(program, .seq [opt [Token.interpreterLine], many statement]),
   (declaration, .choice
     [functionDeclaration, generatorDeclaration, classDeclaration, lexicalDeclaration,
      variableDeclaration, functionSignature, abstractClassDeclaration, moduleDeclaration,
      ranked .declare [internalModule], typeAliasDeclaration, enumDeclaration,
      interfaceDeclaration, importAlias, ambientDeclaration]),
   (statement, .choice
     [exportStatement, importStatement, debuggerStatement, expressionStatement, declaration,
      statementBlock, ifStatement, switchStatement, forStatement, forInStatement, whileStatement,
      doStatement, tryStatement, withStatement, breakStatement, continueStatement,
      returnStatement, throwStatement, emptyStatement, labeledStatement]),
   (expressionStatement, .seq [expressions, semicolon]),
   (variableDeclaration, .seq ["var", commas variableDeclarator, semicolon]),
   (lexicalDeclaration, .seq [oneOf ["let", "const"], commas variableDeclarator, semicolon]),
   (variableDeclarator, .choice
     [.seq [binding, opt [typeNote], opt [initializer]],
      ranked .declare [Token.name, "!", typeNote]]),
   (statementBlock, right [openBrace, many statement, closeBrace, opt [Token.lineEnd]]),
   (labeledStatement, .weigh (-1) (.seq [.choice [Token.name, softKeyword], ":", statement])),
   (emptyStatement, ";"),
   (debuggerStatement, .seq ["debugger", semicolon])]

/-- Branches and jumps. -/
def branches : Rules :=
  [(ifStatement, right ["if", parenthesizedExpression, statement, opt [elseClause]]),
   (elseClause, .seq ["else", statement]),
   (switchStatement, .seq ["switch", parenthesizedExpression, switchBody]),
   (switchBody, braced [many (.choice [switchCase, switchDefault])]),
   (switchCase, .seq ["case", expressions, ":", many statement]),
   (switchDefault, .seq ["default", ":", many statement]),
   (tryStatement, .seq ["try", statementBlock, opt [catchClause], opt [finallyClause]]),
   (catchClause, .seq ["catch", opt ["(", binding, opt [typeNote], ")"], statementBlock]),
   (finallyClause, .seq ["finally", statementBlock]),
   (breakStatement, .seq ["break", opt [Token.name], semicolon]),
   (continueStatement, .seq ["continue", opt [Token.name], semicolon]),
   (returnStatement, .seq ["return", opt [expressions], semicolon]),
   (throwStatement, .seq ["throw", expressions, semicolon])]

/-- Loops. -/
def loops : Rules :=
  [(forStatement, .seq ["for", "(",
      .choice [lexicalDeclaration, variableDeclaration, expressionStatement, emptyStatement],
      .choice [expressionStatement, emptyStatement],
      opt [expressions], ")", statement]),
   (forInStatement, .seq ["for", opt ["await"], forHeader, statement]),
   (forHeader, parenthesized
     [.choice
        [.choice [target, parenthesizedExpression],
         .seq ["var", binding, opt [initializer]],
         .seq [oneOf ["let", "const"], binding]],
      oneOf ["in", "of"],
      expressions]),
   (whileStatement, .seq ["while", parenthesizedExpression, statement]),
   (doStatement, .seq ["do", statement, "while", parenthesizedExpression, semicolon]),
   (withStatement, .seq ["with", parenthesizedExpression, statement])]

end ImportAtlas.Script.Grammar
