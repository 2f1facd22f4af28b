/-
  The exceptions of the collector (`domain/exceptions.py`), and the part of a
  Python exception that the program reads: the classes it tests for, the class
  name, the message, and the `code` attribute.
-/
import Mathlib.Init

namespace PlcGateway

/-- The classes the program tests an exception for. -/
inductive ErrorKind where
  | configurationError
  | transientCommunicationError
  | permanentProtocolError
  | storageError
  | timeoutError
  | other
  deriving DecidableEq, Repr

/-- The `code` attribute of an exception; `other` is a value that is no string. -/
inductive CodeAttribute where
  | none
  | text (s : String)
  | other
  deriving DecidableEq, Repr

structure PyError where
  kind : ErrorKind
  className : String
  message : String
  code : CodeAttribute
  deriving DecidableEq, Repr

namespace PyError

/-- `str(error) or error.__class__.__name__` -/
def describe (e : PyError) : String := if e.message = "" then e.className else e.message

/-- `_error_code`: a non-empty string code, or else the class name. -/
def errorCode (e : PyError) : String :=
  match e.code with
  | .text s => if s = "" then e.className else s
  | _ => e.className

def configuration (message : String) : PyError :=
  ⟨.configurationError, "ConfigurationError", message, .none⟩

def storage (message : String) (code : CodeAttribute) : PyError :=
  ⟨.storageError, "StorageError", message, code⟩

/-- What `asyncio.wait_for` raises. -/
def timeout : PyError := ⟨.timeoutError, "TimeoutError", "", .none⟩

def valueError (message : String) : PyError := ⟨.other, "ValueError", message, .none⟩

def keyError (key : String) : PyError := ⟨.other, "KeyError", s!"'{key}'", .none⟩

def runtimeError (message : String) : PyError := ⟨.other, "RuntimeError", message, .none⟩

def overflowError (message : String) : PyError := ⟨.other, "OverflowError", message, .none⟩

/-- What `base64.b64decode` raises. -/
def binasciiError (message : String) : PyError := ⟨.other, "Error", message, .none⟩

/-- What the engine raises when a constraint fails. -/
def integrityError (message : String) : PyError := ⟨.other, "IntegrityError", message, .none⟩

/-- What the engine raises when the database cannot be used. -/
def operationalError (message : String) : PyError := ⟨.other, "OperationalError", message, .none⟩

end PyError

@[simp] theorem ok_bind {α β : Type} (a : α) (f : α → Except PyError β) :
    (Except.ok a >>= f) = f a := rfl

@[simp] theorem error_bind {α β : Type} (e : PyError) (f : α → Except PyError β) :
    (Except.error e >>= f) = .error e := rfl

end PlcGateway
