import ChamaEscrow.Engine.State

/-!
# The host libraries

The engine calls a hash, a signature check and a Bitcoin library that are not part of its sources.
`Host` collects what it asks of them, each answer as the engine reads it; every result below holds
for every host.
-/

namespace ChamaEscrow

open Js Library

/-- An unspent output, as a settlement transaction names it. -/
structure Utxo where
  txid : String
  index : JsNumber
  amountSats : ℕ
  deriving DecidableEq

structure BondAnnouncement where
  npub : String
  community : String
  network : BitcoinNetwork
  ownerXonly : String
  roles : List String
  lockUntil : JsNumber
  address : String

/-- The answers of the libraries under the engine.  What can throw there is an `Except`; a check
that the engine wraps in `try` is a `Bool`, false when it throws. -/
structure Host where
  /-- The hexadecimal SHA-256 of a text. -/
  sha256Hex : String → String
  /-- `parseBondAnnouncementEvent`, the signature included. -/
  bondAnnouncement : JsValue → Except JsError (Option BondAnnouncement)
  /-- The address of a commitment bond. -/
  bondAddress : (ownerXonly : String) → (lockUntil : JsNumber) → BitcoinNetwork →
    Except JsError String
  /-- `buildOnchainEscrow(terms).address`. -/
  escrowAddress : OnchainFundingTerms → Except JsError String
  /-- `btc.p2tr(key, undefined, network).address`. -/
  taprootAddress : (xonly : String) → BitcoinNetwork → Except JsError String
  /-- The id of the unsigned transaction in a PSBT. -/
  unsignedId : (psbt : String) → Except JsError String
  /-- The inputs of a PSBT, all complete. -/
  inputs : (psbt : String) → Except JsError (List Utxo)
  /-- The amount of a PSBT's first output. -/
  outputSats : (psbt : String) → Except JsError String
  /-- `verifySettlementPsbt(psbt, …).ok` against its own inputs. -/
  settlementVerifies : (psbt : String) → OnchainFundingTerms → (destination : JsValue) →
    SettlementLeaf → Bool
  /-- `hasValidSettlementSignatureForRole`. -/
  hasValidSignature : (psbt : String) → OnchainFundingTerms → Role → SettlementLeaf → Bool
  /-- Whether `finalizeSettlement` assembles the transaction. -/
  finalizes : (psbt : String) → OnchainFundingTerms → SettlementLeaf → Bool

end ChamaEscrow
