/-!
# Errors

Everything that can go wrong in a session is an `Error`, named for its cause. None of them ends the
session: whoever typed the line sees `Error.message` and may type the next one.

An `Attempt` is the outcome of an operation that may fail after it has changed something: what it
left behind, and its result. Operations that cannot leave anything half done return a plain
`Except Error`.
-/

namespace PocketShell

/-- **What can be wrong with a `data:` address.** -/
inductive DataUrl.Error where
  | noScheme (url : String)
  /-- There is no comma, hence no payload. -/
  | noPayload (url : String)
  /-- The payload is marked as Base64 and is none. The media type is the declared one. -/
  | badPayload (mediaType : String)
  deriving DecidableEq, Repr

/-- The words for a fault in a `data:` address. -/
def DataUrl.Error.message : DataUrl.Error → String
  | .noScheme url => "not a data URL: " ++ url
  | .noPayload url => "data URL has no payload: " ++ url
  | .badPayload mediaType => "invalid base64 payload (" ++ mediaType ++ ")"

/-- **Errors of a session,** by cause. -/
inductive Error where
  /-- A group of tokens that is not of the form `key=value`. -/
  | malformedPair (text : String)
  | emptyKey
  | unknownCommand (word : String)
  | noSuchNode (name parent : String)
  | notADirectory (name : String)
  | invalidPath (path : String)
  | duplicateName (parent child : String)
  | immutableCommand (name : String)
  /-- An alias that was entered again while it was running, at the end of the chain of commands
  that led to it. -/
  | cyclicAlias (chain : List String)
  | malformedManifest
  | manifestRootNotDirectory
  /-- A file of a manifest whose address cannot be read. -/
  | dataUrl (fault : DataUrl.Error)
  | pauseTooLong (seconds : String)
  /-- A node that is no longer in the tree. -/
  | danglingNode
  /-- Commands that entered each other more often than there is room for. -/
  | nestedTooDeep
  /-- A failure that a custom command reports in its own words. -/
  | reported (text : String)
  deriving DecidableEq, Repr

/-- Is this an error of lines that have lines run? No command has it on its own. -/
def Error.isNesting : Error → Bool
  | .cyclicAlias _ | .nestedTooDeep => true
  | _ => false

/-- **The words for an error,** as a user sees them. -/
def Error.message : Error → String
  | .malformedPair text => "Syntax error: Expected \"key=value\" syntax. Got " ++ text
  | .emptyKey => "Error: Cannot put empty key in environment."
  | .unknownCommand word =>
    "Unknown command \"" ++ word ++ "\"\nType \"help\" if you need some."
  | .noSuchNode name parent =>
    "No node named \"" ++ name ++ "\" found in parent \"" ++ parent ++ "\"."
  | .notADirectory name => "Unexpected non-directory node \"" ++ name ++ "\""
  | .invalidPath path => "Invalid path: " ++ path
  | .duplicateName parent child => parent ++ " already contains a file named " ++ child
  | .immutableCommand name => name ++ " cannot be overridden."
  | .cyclicAlias chain => "Alias cycle detected: " ++ String.intercalate " -> " chain
  | .malformedManifest => "malformed filesystem manifest"
  | .manifestRootNotDirectory => "filesystem manifest root must be a directory"
  | .dataUrl fault => fault.message
  | .pauseTooLong seconds => "cannot sleep for " ++ seconds ++ " seconds"
  | .danglingNode => "dangling filesystem node"
  | .nestedTooDeep => "commands are nested too deep"
  | .reported text => text

/-- **Attempts.** What an operation on a `σ` leaves behind, and its result. -/
abbrev Attempt (σ α : Type) : Type := σ × Except Error α

/-- The second step goes on with what the first one gives. -/
theorem bind_ok {ε α β : Type} (a : α) (next : α → Except ε β) : .ok a >>= next = next a := rfl

/-- A computation of two steps succeeds exactly when both do. -/
theorem bind_eq_ok_iff {ε α β : Type} {first : Except ε α} {next : α → Except ε β} {b : β} :
    first >>= next = .ok b ↔ ∃ a, first = .ok a ∧ next a = .ok b := by
  cases first with
  | error e => simp [bind, Except.bind]
  | ok a => simp [bind, Except.bind]

/-- A computation of two steps fails exactly when one of them does. -/
theorem bind_eq_error_iff {ε α β : Type} {first : Except ε α} {next : α → Except ε β} {e : ε} :
    first >>= next = .error e ↔ first = .error e ∨ ∃ a, first = .ok a ∧ next a = .error e := by
  cases first with
  | error e' => simp [bind, Except.bind]
  | ok a => simp [bind, Except.bind]

end PocketShell
