import ChamaEscrow.Engine.EventParser

/-!
# Raw events

A signed event as a relay sends it: the signed part that the engine reads (`NostrEvent`), the number
of its kind and its content as text.
-/

namespace ChamaEscrow

open Js Library

/-- A signed event with its kind and its content. -/
structure RawEvent where
  event : NostrEvent
  kind : ℕ
  content : String

namespace RawEvent

/-- `event.id`. -/
def id (e : RawEvent) : String := e.event.id

/-- `event.created_at`. -/
def createdAt (e : RawEvent) : JsNumber := e.event.createdAt

end RawEvent

/-- `text.length`: a character beyond the basic plane counts as two units. -/
def unitCount (text : String) : ℕ :=
  (text.toList.map fun c => if c.toNat < 0x10000 then 1 else 2).sum

def heavyCursorEventBytes : ℕ := 8 * 1024

end ChamaEscrow
