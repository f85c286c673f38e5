/-
  Datebook/Command/Fault.lean
  ===========================
  **Why a text is no command**: a cause, and the byte where reading stopped.

  Offsets count UTF-8 bytes from the start of the text, so that an editor can
  place a cursor.  The wording lives in `Cause.message` alone.
-/
import Datebook.Command.Verb
import Datebook.Text.Digits

namespace Datebook

/-- What the reader wanted and did not find. -/
inductive CommandCause where
  /-- The text does not start with a word. -/
  | noVerb
  /-- The text starts with a word that is no verb. -/
  | unknownVerb (word : String)
  /-- Behind the verb stands no list of quoted arguments in parentheses. -/
  | noArguments
  /-- Something follows the call. -/
  | trailing (rest : String)
  /-- The verb takes another number of arguments. -/
  | arity (verb : Verb) (got : Nat)
  /-- A fault that another component describes in its own words. -/
  | described (text : String)
  deriving DecidableEq, Repr

def CommandCause.message : CommandCause → String
  | .noVerb => "expected a command name"
  | .unknownVerb word => "unknown command `" ++ word ++ "`"
  | .noArguments => "expected a parenthesized, comma-separated list of quoted strings"
  | .trailing rest => "unexpected trailing content `" ++ rest ++ "`"
  | .arity verb got =>
    verb.word ++ " expects " ++ natText verb.arity ++ " argument(s), got " ++ natText got
  | .described text => text

/-- A cause, and the UTF-8 byte offset it was noticed at. -/
structure CommandFault where
  cause : CommandCause
  offset : Nat
  deriving DecidableEq, Repr

def CommandFault.message (f : CommandFault) : String :=
  "Parse error at byte " ++ natText f.offset ++ ": " ++ f.cause.message

end Datebook
