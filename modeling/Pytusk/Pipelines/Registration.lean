import Pytusk.Ops.BlobExecute

/-!
# `pipelines/registration.py`: the two ways to register a blob
-/

namespace Pytusk.Pipelines

open Pytusk.Lib Pytusk.Ops

/-- `BlobRegistration`, with the fields of its two implementations. -/
inductive BlobRegistration where
  | plainBlobRegistration (paymentCoin sender sponsor : Option String)
      (attributes : List (String × String))
  | tippedBlobRegistration (tip : TipComposition) (walPaymentCoin sender : String)
      (sponsor : Option String) (attributes : List (String × String))
  deriving DecidableEq, Repr

variable (w : World)

/-- `register` -/
def BlobRegistration.register (strategy : BlobRegistration) (terms : RegistrationTerms) :
    Program Registration :=
  match strategy with
  | .plainBlobRegistration paymentCoin sender sponsor attributes =>
      executeReserveAndRegister w terms paymentCoin sender sponsor attributes
  | .tippedBlobRegistration tip walPaymentCoin sender sponsor attributes => do
      let txn ← openTransaction w .tx1 sender sponsor
      let txn ← Logged.lift <|
        addRegistrationSequence (w.transaction .tx1).builder terms txn sender
          walPaymentCoin (some tip) attributes
      executeRegistrationTxn w txn terms.encoded sender "tip/reserve_space/register_blob"

end Pytusk.Pipelines
