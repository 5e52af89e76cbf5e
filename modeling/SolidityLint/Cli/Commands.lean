import SolidityLint.Library.Cli.Command
import SolidityLint.Config.Load
import SolidityLint.Rules.Catalog

/-!
# Cli — the commands of the program

What each command is called, what it says about itself and the flags that it knows.
-/

namespace SolidityLint

namespace Commands

/-- The name of the program. -/
def program : String := "solidhunter"

/-- Flags of all commands. -/
def shared : List Flag := [
  { name := "color", kind := .text, standard := "auto", usage := "colorize output: auto, always, never" },
  { name := "config", kind := .text, usage := "path to rule-set file" },
  { name := "debug", kind := .switch, usage := "enable debug logging" },
  { name := "directory", letter := some 'C', kind := .text, usage := "run as if started in this directory" }]

/-- The flag of every command that asks for its help. -/
def helpFlag (name : String) : Flag :=
  { name := "help", letter := some 'h', kind := .switch, usage := "help for " ++ name }

/-- A command without commands below it. -/
def leaf (use short long : String) (flags : List Flag) : Command :=
  .mk use short long flags true false []

def lint : Command := leaf "lint [paths...]" "Lint Solidity files"
  "Lint Solidity files.

By default, lints every .sol file under the current directory. With
--parser foundry and no paths, the project's source directory is linted
from the ASTs in its build output; run 'forge build' first.

Examples:
  solidhunter lint                       # Lint current directory with solc
  solidhunter lint contracts/            # Lint one directory
  solidhunter lint --parser foundry      # Use Foundry build artifacts
  solidhunter lint --format sarif        # Output SARIF for code scanning
  solidhunter lint --strict              # Fail on warnings too
  solidhunter lint --watch               # Re-lint on every change" [
  { name := "format", kind := .text, standard := "text"
    usage := "output format: text, table, json, sarif, summary" },
  { name := "parser", kind := .text, standard := "solc", usage := "AST front-end: solc, foundry" },
  { name := "solc", kind := .text, standard := "solc", usage := "solc executable" },
  { name := "solc-timeout", kind := .duration, standard := "30s", usage := "timeout per solc run" },
  { name := "foundry-root", kind := .text
    usage := "directory holding foundry.toml (default: search upward)" },
  { name := "ignore", kind := .texts, usage := "glob patterns to ignore" },
  { name := "jobs", letter := some 'j', kind := .int
    usage := "number of parallel workers (0 = auto)" },
  { name := "strict", kind := .switch, usage := "treat warnings as errors for exit code" },
  { name := "watch", letter := some 'w', kind := .switch, usage := "re-lint when files change" },
  { name := "no-ignore-file", kind := .switch, usage := "do not read .solidhunterignore files" },
  { name := "no-context", kind := .switch, usage := "hide source line context in output" },
  { name := "compact", kind := .switch, usage := "use compact output format" },
  { name := "summary-order", kind := .text, standard := "rules"
    usage := "order of tables in summary output: rules, files" },
  { name := "summary-sort", kind := .text, standard := "count"
    usage := "row order in summary output: count, alpha, severity" }]

def rules : Command := leaf "rules" "List available lint rules"
  "List all available lint rules with their category, default severity
and description. Use 'solidhunter docs' for full documentation." [
  { name := "format", kind := .text, standard := "text", usage := "output format: text, json" },
  { name := "category", kind := .text, usage := "only list rules in this category" }]

/-- Where documentation goes if nothing else is said. -/
def docsDir : String := "docs/rules"

def docs : Command := leaf "docs" "Generate rule documentation"
  "Generate documentation for every rule.

Markdown and HTML produce one page per rule, grouped by category, plus an
index. JSON produces a single rules.json; without --out it is printed.

Examples:
  solidhunter docs                          Markdown under docs/rules
  solidhunter docs --format html --out site Render HTML pages into site/
  solidhunter docs --format json            Print rule metadata as JSON" [
  { name := "format", kind := .text, standard := "markdown"
    usage := "output format: markdown, html, json" },
  { name := "out", letter := some 'o', kind := .text
    usage := "output directory (default: " ++ docsDir ++ ")" }]

def init : Command := leaf "init" "Create a rule-set file"
  "Create a .solidhunter.json rule set in the current directory from one
of the built-in packs. An existing file is only replaced with --force or
after confirmation; the previous version is kept as a backup.

Examples:
  solidhunter init                       Every rule at its default severity
  solidhunter init --pack security       Only the security rules
  solidhunter init -o rules.yaml         Write YAML to a custom path
  solidhunter init --list-packs          Show the available packs" [
  { name := "pack", kind := .text, standard := "recommended"
    usage := "rule pack: " ++ String.intercalate ", " Rules.packNames },
  { name := "force", letter := some 'f', kind := .switch
    usage := "overwrite an existing file without asking" },
  { name := "output", letter := some 'o', kind := .text, standard := defaultRuleSetFile
    usage := "output file; .yml or .yaml writes YAML" },
  { name := "list-packs", kind := .switch, usage := "list the available packs and exit" }]

def version : Command := leaf "version" "Print version information"
  "Print the version, commit hash, and build date of solidhunter." []

def help : Command := leaf "help [command]" "Help about any command"
  "Help provides help for any command in the application.
Simply type solidhunter help [path to command] for full details." []

/-- A command that prints a script for a shell. -/
def completionFor (shell long : String) : Command :=
  .mk shell ("Generate the autocompletion script for " ++ shell) long
    [{ name := "no-descriptions", kind := .switch, usage := "disable completion descriptions" }]
    true true []

def completion : Command := .mk "completion"
  "Generate the autocompletion script for the specified shell"
  "Generate the autocompletion script for solidhunter for the specified shell.
See each sub-command's help for details on how to use the generated script.
  " [] false false [
  completionFor "bash"
  "Generate the autocompletion script for the bash shell.

This script depends on the 'bash-completion' package.
If it is not installed already, you can install it via your OS's package manager.

To load completions in your current shell session:

\tsource <(solidhunter completion bash)

To load completions for every new session, execute once:

#### Linux:

\tsolidhunter completion bash > /etc/bash_completion.d/solidhunter

#### macOS:

\tsolidhunter completion bash > $(brew --prefix)/etc/bash_completion.d/solidhunter

You will need to start a new shell for this setup to take effect.
",
  completionFor "zsh"
  "Generate the autocompletion script for the zsh shell.

If shell completion is not already enabled in your environment you will need
to enable it.  You can execute the following once:

\techo \"autoload -U compinit; compinit\" >> ~/.zshrc

To load completions in your current shell session:

\tsource <(solidhunter completion zsh)

To load completions for every new session, execute once:

#### Linux:

\tsolidhunter completion zsh > \"$\x7bfpath[1]\x7d/_solidhunter\"

#### macOS:

\tsolidhunter completion zsh > $(brew --prefix)/share/zsh/site-functions/_solidhunter

You will need to start a new shell for this setup to take effect.
",
  completionFor "fish"
  "Generate the autocompletion script for the fish shell.

To load completions in your current shell session:

\tsolidhunter completion fish | source

To load completions for every new session, execute once:

\tsolidhunter completion fish > ~/.config/fish/completions/solidhunter.fish

You will need to start a new shell for this setup to take effect.
",
  completionFor "powershell"
  "Generate the autocompletion script for powershell.

To load completions in your current shell session:

\tsolidhunter completion powershell | Out-String | Invoke-Expression

To load completions for every new session, add the output of the above command
to your powershell profile.
"]

/-- The program. -/
def root : Command := .mk program "A linter for Solidity smart contracts"
  "solidhunter checks Solidity sources for security pitfalls, naming and
ordering conventions, and common best-practice violations.

ASTs come from the solc compiler or from the build artifacts of a Foundry
project. Rules are configured through a .solidhunter.json rule set; run
'solidhunter init' to create one." [] false false
  [lint, rules, docs, init, version, help, completion]

end Commands

end SolidityLint
