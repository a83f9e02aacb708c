import Mathlib.Tactic.TypeStar

/-!
# `types/errors.py`: raised exceptions

A raised exception is its class together with the attributes the code reads
back (`str(exc)`, `exc.stage`, ...). The predicates at the end answer what an
`except` clause asks: whether the class is a subclass of the one it names.
-/

namespace Pytusk

/-- The built-in classes the modelled code raises or can be handed.
`exception` stands for every other direct subclass of `Exception`. -/
inductive BuiltinExn where
  | valueError
  | typeError
  | keyError
  | indexError
  | overflowError
  | runtimeError
  | recursionError
  | assertionError
  | attributeError
  | exception
  deriving DecidableEq, Repr

/-- `NativeUploadError` and its subclasses. -/
inductive NativeUploadClass where
  | nativeUploadError
  | sliverUploadError
  | confirmationCollectionError
  | epochMismatchError
  | certifyTransactionError
  deriving DecidableEq, Repr

/-- `RelayUploadError` and its subclasses. -/
inductive RelayUploadClass where
  | relayUploadError
  | tipCeilingExceededError
  | tipConfigError
  | tipPaymentError
  | relayCertificateParseError
  | relayCertifyTransactionError
  deriving DecidableEq, Repr

/-- A measured number of seconds. Whether a stage was timed is kept, what the
clock said is not. -/
structure Elapsed where
  deriving DecidableEq, Repr

/-- A raised exception, or `neverReturns`: nothing is raised, and the call is
not left either. No `except` clause sees that. -/
inductive PyExn where
  | builtin (cls : BuiltinExn) (message : String)
  | blobTooLargeError (message : String)
  | confirmationMismatchError (message : String)
  | invalidConfirmationError (message : String)
  | quorumNotReachedError (message : String)
  | quiltAssemblyError (message : String)
  | nativeUpload (cls : NativeUploadClass) (message stage : String)
      (duration : Option Elapsed)
  | relayUpload (cls : RelayUploadClass) (message stage : String)
      (duration : Option Elapsed)
  | chainContextError (message stage : String)
  | registrationPendingError (digest objectId detail stage : String)
  | neverReturns
  deriving DecidableEq, Repr

namespace PyExn

def valueError (message : String) : PyExn := .builtin .valueError message

def keyError (message : String) : PyExn := .builtin .keyError message

def indexError (message : String) : PyExn := .builtin .indexError message

def typeError (message : String) : PyExn := .builtin .typeError message

def attributeError (message : String) : PyExn := .builtin .attributeError message

def overflowError (message : String) : PyExn := .builtin .overflowError message

def runtimeError (message : String) : PyExn := .builtin .runtimeError message

def recursionError (message : String) : PyExn := .builtin .recursionError message

/-- `type(exc).__name__` -/
def className : PyExn → String
  | .builtin .valueError _ => "ValueError"
  | .builtin .typeError _ => "TypeError"
  | .builtin .keyError _ => "KeyError"
  | .builtin .indexError _ => "IndexError"
  | .builtin .overflowError _ => "OverflowError"
  | .builtin .runtimeError _ => "RuntimeError"
  | .builtin .recursionError _ => "RecursionError"
  | .builtin .assertionError _ => "AssertionError"
  | .builtin .attributeError _ => "AttributeError"
  | .builtin .exception _ => "Exception"
  | .blobTooLargeError _ => "BlobTooLargeError"
  | .confirmationMismatchError _ => "ConfirmationMismatchError"
  | .invalidConfirmationError _ => "InvalidConfirmationError"
  | .quorumNotReachedError _ => "QuorumNotReachedError"
  | .quiltAssemblyError _ => "QuiltAssemblyError"
  | .nativeUpload .nativeUploadError .. => "NativeUploadError"
  | .nativeUpload .sliverUploadError .. => "SliverUploadError"
  | .nativeUpload .confirmationCollectionError .. => "ConfirmationCollectionError"
  | .nativeUpload .epochMismatchError .. => "EpochMismatchError"
  | .nativeUpload .certifyTransactionError .. => "CertifyTransactionError"
  | .relayUpload .relayUploadError .. => "RelayUploadError"
  | .relayUpload .tipCeilingExceededError .. => "TipCeilingExceededError"
  | .relayUpload .tipConfigError .. => "TipConfigError"
  | .relayUpload .tipPaymentError .. => "TipPaymentError"
  | .relayUpload .relayCertificateParseError .. => "RelayCertificateParseError"
  | .relayUpload .relayCertifyTransactionError .. => "RelayCertifyTransactionError"
  | .chainContextError _ _ => "ChainContextError"
  | .registrationPendingError .. => "RegistrationPendingError"
  | .neverReturns => ""

/-- `_RESUME_HINT_PENDING_READBACK` -/
def resumeHintPendingReadback : String :=
  "Sliver fan-out has NOT yet run, so no storage node has confirmed " ++
  "this blob and Tx2 (certify_blob) cannot be submitted yet -- but Tx1 " ++
  "already succeeded and storage is already paid for, so reserve_space/" ++
  "register_blob does NOT need to be re-run. Resume the pipeline from " ++
  "sliver upload onward using this transaction's digest and object_id."

/-- `str(exc)` -/
def message : PyExn → String
  | .builtin _ m => m
  | .blobTooLargeError m => m
  | .confirmationMismatchError m => m
  | .invalidConfirmationError m => m
  | .quorumNotReachedError m => m
  | .quiltAssemblyError m => m
  | .nativeUpload _ m .. => m
  | .relayUpload _ m .. => m
  | .chainContextError m _ => m
  | .registrationPendingError digest objectId detail _ =>
      s!"{detail} Tx1 (digest {digest}) SUCCEEDED on-chain -- the " ++
      s!"blob is registered and storage is already paid for " ++
      s!"(object_id {objectId}). {resumeHintPendingReadback}"
  | .neverReturns => ""

/-- `exc.stage`, of the classes that have one. -/
def stage : PyExn → String
  | .nativeUpload _ _ stage _ => stage
  | .relayUpload _ _ stage _ => stage
  | .chainContextError _ stage => stage
  | .registrationPendingError _ _ _ stage => stage
  | _ => ""

/-- `exc.duration`, of the classes that have one. -/
def duration : PyExn → Option Elapsed
  | .nativeUpload _ _ _ duration => duration
  | .relayUpload _ _ _ duration => duration
  | _ => none

/-- The text `f"{type(exc).__name__}: {exc}"`. -/
def describe (e : PyExn) : String := s!"{e.className}: {e.message}"

/-! ## What an `except` clause catches -/

def isValueError : PyExn → Bool
  | .builtin .valueError _ => true
  | .blobTooLargeError _ => true
  | .confirmationMismatchError _ => true
  | .invalidConfirmationError _ => true
  | .quiltAssemblyError _ => true
  | _ => false

def isTypeError : PyExn → Bool
  | .builtin .typeError _ => true
  | _ => false

def isRuntimeError : PyExn → Bool
  | .builtin .runtimeError _ | .builtin .recursionError _ => true
  | .quorumNotReachedError _ => true
  | .nativeUpload .. => true
  | .relayUpload .. => true
  | .chainContextError .. => true
  | .registrationPendingError .. => true
  | _ => false

/-- `try: .. except ValueError: return None` -/
def noneOnValueError {α : Type} : Except PyExn α → Except PyExn (Option α)
  | .ok a => .ok (some a)
  | .error e => if e.isValueError then .ok none else .error e

def isNativeUploadError : PyExn → Bool
  | .nativeUpload .. => true
  | _ => false

def isRelayUploadError : PyExn → Bool
  | .relayUpload .. => true
  | _ => false

end PyExn

end Pytusk
