import SolidityLint.Library.Cli.Command
import SolidityLint.Library.Glob.Matcher
import SolidityLint.Library.Language.Solidity
import SolidityLint.Library.Markdown.Html
import SolidityLint.Library.Text.Width
import SolidityLint.Library.Toml.Parser
import SolidityLint.Library.Yaml.Parser
import SolidityLint.Library.Yaml.Printer

/-!
# Library — what the program takes from elsewhere

Patterns for paths, the formats of configuration files, documents in Markdown, the language of a
file, texts as a terminal shows them and the flags of a command line come from libraries.  They are
written out below this module so that the program runs, and know nothing of it.  Theorems about the
program rely on them for a few named facts only.

* Patterns: a matcher accepts what its pattern means (`Glob.Faithful`).  This is a hypothesis, and
  proved of patterns without wildcards (`Glob.faithful_text`) and of those with `**` at their end
  (`Glob.faithful_front`).
* Texts: the tables of characters keep `CharacterLaws`, by `characterLaws`.
* Flags: what is read of a flag is a value of its kind (`GivenFlags.Fits`), by `Flags.parse_fits`.
* Of the formats, the documents and the languages nothing is relied on.
-/
