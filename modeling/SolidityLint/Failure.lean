import SolidityLint.Ast.Decode
import SolidityLint.Lint.Registry

/-!
# Failures

What can go wrong when files are read, parsed and linted.  A failure is a cause with the contexts
that it passed through; its message names the contexts first.  Causes that come from reading JSON,
YAML or TOML have no words of their own.
-/

namespace SolidityLint

/-- What the file system refuses. -/
inductive FileTrouble where
  | notExist
  | notDirectory
  | isDirectory
  | exist
  | notEmpty
  | tooManyLinks
  | denied
  | noSpace
deriving DecidableEq, Repr

/-- The system's words. -/
def FileTrouble.message : FileTrouble → String
  | .notExist => "no such file or directory"
  | .notDirectory => "not a directory"
  | .isDirectory => "is a directory"
  | .exist => "file exists"
  | .notEmpty => "directory not empty"
  | .tooManyLinks => "too many levels of symbolic links"
  | .denied => "permission denied"
  | .noSpace => "no space left on device"

/-- Kinds of failures that callers tell apart. -/
inductive FailureKind where
  | cancelled | timeout | lintIssues | unknownRule | configIo | configDeserialization
  | astDeserialization | malformedSpan | tokenize | parse | noArtifact | noProject
  | nilFileInfo | notFound | permission | isDirectory | tooLarge | notExist | validation | other
deriving DecidableEq, Repr

/-- The name of a kind. -/
def FailureKind.name : FailureKind → String
  | .cancelled => "cancelled"
  | .timeout => "timeout"
  | .lintIssues => "lint_issues"
  | .unknownRule => "unknown_rule"
  | .configIo => "config_io"
  | .configDeserialization => "config_deserialization"
  | .astDeserialization => "ast_deserialization"
  | .malformedSpan => "malformed_span"
  | .tokenize => "tokenize"
  | .parse => "parse"
  | .noArtifact => "no_artifact"
  | .noProject => "no_project"
  | .nilFileInfo => "nil_file_info"
  | .notFound => "not_found"
  | .permission => "permission"
  | .isDirectory => "is_directory"
  | .tooLarge => "too_large"
  | .notExist => "not_exist"
  | .validation => "validation"
  | .other => "other"

/-- A cause of failure in its contexts. -/
inductive Failure where
  /-- The work was called off. -/
  | cancelled
  /-- The compiler took longer than its limit. -/
  | timeout
  | lintIssues
  | unknownRules (ids : List String)
  | decode (error : DecodeError)
  /-- An operation of the file system on a path. -/
  | file (operation path : String) (trouble : FileTrouble)
  /-- A text that a decoder refused. -/
  | unreadable
  /-- A cause with its own words. -/
  | plain (message : String)
  /-- A cause behind a text, with a colon between them. -/
  | within (context : String) (inner : Failure)
  /-- A cause that callers know by a kind. -/
  | marked (kind : FailureKind) (inner : Failure)
  /-- Several causes, one on each line. -/
  | joined (first second : Failure)
deriving Repr

namespace Failure

/-- The message; none when a decoder wrote a part of it. -/
def message? : Failure → Option String
  | cancelled => some "context canceled"
  | timeout => some "context deadline exceeded"
  | lintIssues => some "lint issues found"
  | unknownRules ids => some (unknownRulesMessage ids)
  | decode e => e.message?
  | file operation path trouble => some (operation ++ " " ++ path ++ ": " ++ trouble.message)
  | unreadable => none
  | plain m => some m
  | within context inner => inner.message?.map fun m => context ++ ": " ++ m
  | marked _ inner => inner.message?
  | joined a b => do return (← a.message?) ++ "\n" ++ (← b.message?)

/-- The message as shown to users. -/
def text (f : Failure) : String := f.message?.getD ""

/-- The failure over ids of rules that are unknown; none when there are none. -/
def ofUnknown? : List String → Option Failure
  | [] => none
  | ids => some (.unknownRules ids)

/-- The kinds that a failure is of. -/
def kinds : Failure → List FailureKind
  | cancelled => [.cancelled]
  | timeout => [.timeout]
  | lintIssues => [.lintIssues]
  | unknownRules _ => [.unknownRule]
  | decode (.badSource ..) => [.astDeserialization, .malformedSpan]
  | decode _ => [.astDeserialization]
  | file _ _ .notExist => [.notExist]
  | file _ _ _ => []
  | unreadable => []
  | plain _ => []
  | within _ inner => inner.kinds
  | marked kind inner => kind :: inner.kinds
  | joined a b => a.kinds ++ b.kinds

/-- The order in which kinds are asked for. -/
def kindOrder : List FailureKind :=
  [.cancelled, .timeout, .lintIssues, .unknownRule, .configIo, .configDeserialization,
    .astDeserialization, .malformedSpan, .tokenize, .parse, .noArtifact, .noProject, .nilFileInfo,
    .notFound, .permission, .isDirectory, .tooLarge, .notExist, .validation]

/-- The first kind in order that a failure is of. -/
def kind (f : Failure) : FailureKind := (kindOrder.find? f.kinds.contains).getD .other

/-- The kind and the message as JSON. -/
def toJson (f : Failure) : Json :=
  .ofOptional [("error", some (.str f.kind.name)), ("message", f.message?.map .str)]

/-- Is the failure of a kind? -/
def isOf (f : Failure) (k : FailureKind) : Bool := f.kinds.contains k

end Failure

end SolidityLint
