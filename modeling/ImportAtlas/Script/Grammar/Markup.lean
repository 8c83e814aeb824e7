/-
# ImportAtlas.Script.Grammar.Markup -- elements inside expressions

Tags count with a negative weight, so that a reading without markup wins where both are possible.
-/
import ImportAtlas.Script.Rule

namespace ImportAtlas.Script.Grammar

open Rule Phrase

/-- Elements, tags and attributes. -/
def elements : Rules :=
  [(element, .seq [openingTag, many elementChild, closingTag]),
   (elementForm, .choice [element, selfClosingTag]),
   (fragment, .seq ["<", ">", many elementChild, "</", ">"]),
   (elementChild, .choice [Token.markupText, elementForm, fragment, embeddedExpression]),
   (embeddedExpression, braced [opt [.choice [expression, sequenceExpression, spreadElement]]]),
   (tagWord, .choice [Token.markupName, Token.name]),
   (qualifiedTagName, .seq [tagWord, ":", tagWord]),
   (tagName, .choice [tagWord, nestedName, qualifiedTagName]),
   (tagStart, .seq
     ["<",
      .choice
        [.choice [tagWord, qualifiedTagName],
         .seq [.choice [Token.name, nestedName], opt [typeArguments]]],
      many tagAttribute]),
   (openingTag, .weigh (-1) (.seq [tagStart, ">"])),
   (selfClosingTag, .weigh (-1) (.seq [tagStart, "/>"])),
   (closingTag, .seq ["</", tagName, ">"]),
   (tagAttribute, .choice [plainAttribute, embeddedExpression]),
   (attributeName, .choice [tagWord, qualifiedTagName]),
   (plainAttribute, .seq [attributeName, opt ["=", attributeValue]]),
   (attributeValue, .choice [Token.text, embeddedExpression, elementForm, fragment])]

end ImportAtlas.Script.Grammar
