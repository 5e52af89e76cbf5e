import SolidityLint.Docs.Page
import SolidityLint.Library.Markdown.Html

/-!
# Docs — pages in HTML

A page in HTML is the page in Markdown, rendered, in a document of its own.
-/

namespace SolidityLint

namespace Docs

/-- A text in HTML. -/
def escapeHtml (s : String) : String :=
  String.join (s.toList.map fun
    | '&' => "&amp;"
    | '\'' => "&#39;"
    | '<' => "&lt;"
    | '>' => "&gt;"
    | '"' => "&#34;"
    | c => String.singleton c)

/-- A document with a title and a page in Markdown. -/
def html (title source : String) : String :=
  "<!DOCTYPE html>\n<html lang=\"en\">\n<head>\n<meta charset=\"utf-8\">\n<title>" ++ escapeHtml title
    ++ "</title>\n</head>\n<body>\n" ++ Markdown.html source.toList ++ "</body>\n</html>\n"

end Docs

end SolidityLint
