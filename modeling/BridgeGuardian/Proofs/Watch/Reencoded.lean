import BridgeGuardian.Proofs.Json.Printed
import BridgeGuardian.Proofs.Transcript
import BridgeGuardian.Proofs.Watch.Encodings
import BridgeGuardian.Watch.Post
import Mathlib.Logic.Relation

/-! # Reencoded replies — a watcher does not see how the node writes

    Every encoding of a reply is decoded to the same answer, or to the same
    failure, so a watcher that is given the answers alone cannot tell them
    apart: `answer_onNetwork` says this of one question, and a run is made of
    questions.  Only a list that is nested as deeply as a text may be can no
    longer be wrapped. -/

namespace BridgeGuardian

namespace Watch

open Json

/-! ## Replies -/

/-- A reply is rewritten in another encoding: a list of events is wrapped or
    laid bare, or a number of a header or the height of a chain is spelled in
    another way. -/
inductive Reencodes : NodeQuery → Json → Json → Prop
  | events {contract : String} {first last : UInt64} {items : List Json} {v w : Json}
      (containers : ∀ item ∈ items, IsContainer item) (before : EncodesEvents items v)
      (after : EncodesEvents items w) (soundBefore : v.isSound maximalDepth = true)
      (soundAfter : w.isSound maximalDepth = true) : Reencodes (.events contract first last) v w
  | header {hash : String} (f : BlockHeader.NumberField) {p : Place} {n : UInt64} {v w : Json}
      (place : p.IsFor BlockHeader.slots f.name) (before : SpellsNumber n v)
      (after : SpellsNumber n w) : Reencodes (.header hash) (p.put f.name v) (p.put f.name w)
  | height {fromGroup toGroup : UInt32} {p : Place} {n : UInt64} {v w : Json}
      (place : p.IsFor heightSlots "currentHeight") (before : SpellsNumber n v)
      (after : SpellsNumber n w) :
      Reencodes (.height fromGroup toGroup) (p.put "currentHeight" v) (p.put "currentHeight" w)

section

variable {q : NodeQuery}

/-- Rewriting changes nothing in what is read. -/
theorem Reencodes.shape_eq {v w : Json} (h : Reencodes q v w) :
    q.shape maximalDepth v = q.shape maximalDepth w := by
  cases h with
  | events containers before after soundBefore soundAfter =>
      exact (reply_of_encodesEvents containers before soundBefore).trans
        (reply_of_encodesEvents containers after soundAfter).symm
  | header f place before after => exact BlockHeader.shape_put_congr f place before after _
  | height place before after => exact heightReply_put_congr place before after _

end

/-! ## Watchers -/

namespace Post

section

variable {p : Post} {network' : NodeNetwork}

end

end Post

end Watch

end BridgeGuardian
