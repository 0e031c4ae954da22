import BridgeGuardian.Proofs.Hex.Spelling
import BridgeGuardian.Proofs.Json.Spelled
import BridgeGuardian.Recovery.Backfill
import BridgeGuardian.Recovery.Request

/-! # Coordinates in proofs — a path is cut at its slashes in one way

    The chain and the sequence number of a coordinate are written in decimal
    digits and the address in hexadecimal ones, so the only slashes in a path
    are those between its parts.  A text that ends in a path is read from its
    end: `append_slash_inj` takes off what stands behind the last slash, and
    after three such steps the coordinate is known, and what stands in front
    of it is left.  This is why not even the address of another peer can be
    taken for that of another message.

    On the way in, an emitter is accepted as the one with the given number
    and with the address that is read. -/

namespace BridgeGuardian

/-! ## What stands behind the last slash -/

/-- A text is cut at its last slash in one way. -/
theorem append_slash_inj {front front' last last' : List Char} (h : '/' ∉ last)
    (h' : '/' ∉ last') :
    front ++ '/' :: last = front' ++ '/' :: last' ↔ front = front' ∧ last = last' := by
  constructor
  · intro heq
    -- if one front were longer, its slash would stand in the other end
    rcases List.append_eq_append_iff.mp heq with ⟨more, hfront, hlast⟩ | ⟨more, hfront, hlast⟩
    · cases more with
      | nil => exact ⟨by rw [hfront, List.append_nil], (List.cons.inj hlast).2⟩
      | cons c more =>
          refine absurd ?_ h
          rw [(List.cons.inj hlast).2]
          exact List.mem_append_right _ List.mem_cons_self
    · cases more with
      | nil => exact ⟨by rw [hfront, List.append_nil], (List.cons.inj hlast).2.symm⟩
      | cons c more =>
          refine absurd ?_ h'
          rw [(List.cons.inj hlast).2]
          exact List.mem_append_right _ List.mem_cons_self
  · rintro ⟨rfl, rfl⟩
    rfl

theorem slash_notMem_toDigits (n : Nat) : '/' ∉ Nat.toDigits 10 n := by
  intro h
  cases Json.isDigit_of_mem_toDigits h

theorem toDigits_inj {m n : Nat} : Nat.toDigits 10 m = Nat.toDigits 10 n ↔ m = n := by
  constructor
  · intro h
    rw [← Json.digitsValue_toDigits m, h, Json.digitsValue_toDigits]
  · exact congrArg _

theorem Hex.slash_notMem_encode (bytes : Bytes) : '/' ∉ (encode bytes).toList := by
  intro h
  rw [encode, String.toList_ofList, ← map_digit_flatMap_halves] at h
  obtain ⟨value, hvalue, hdigit⟩ := List.mem_map.mp h
  have hall : ∀ v : Fin 16, digit v ≠ '/' := by decide
  exact hall ⟨value, lt_of_mem_halves value hvalue⟩ hdigit

theorem Block.toHex_inj {n : Nat} {a b : Block n} : a.toHex = b.toHex ↔ a = b := by
  constructor
  · intro h
    have hread : Hex.decode a.toHex = .ok a.bytes := Hex.decode_encode a.bytes
    rw [h, Block.toHex, Hex.decode_encode] at hread
    exact Block.ext (Except.ok.inj hread).symm
  · exact congrArg _

/-! ## Paths -/

namespace Coordinate

variable {c d : Coordinate}

/-- A path is three parts with slashes between them. -/
theorem append_slash_path (front : List Char) (c : Coordinate) :
    front ++ '/' :: c.path.toList
      = front ++ '/' :: Nat.toDigits 10 c.emitter.chain.id.toNat ++
          '/' :: c.emitter.address.toHex.toList ++ '/' :: Nat.toDigits 10 c.sequence.toNat := by
  have hpath : c.path = Nat.repr c.emitter.chain.id.toNat ++ "/" ++ c.emitter.address.toHex ++
      "/" ++ Nat.repr c.sequence.toNat := rfl
  rw [hpath]
  simp only [String.toList_append, Nat.toList_repr, List.append_assoc, List.cons_append]
  rfl

/-- A text that ends in a path tells the coordinate, and what stands in front
    of it. -/
theorem append_slash_path_inj {front front' : List Char} :
    front ++ '/' :: c.path.toList = front' ++ '/' :: d.path.toList ↔ front = front' ∧ c = d := by
  constructor
  · intro h
    rw [append_slash_path, append_slash_path] at h
    obtain ⟨h, hsequence⟩ :=
      (append_slash_inj (slash_notMem_toDigits _) (slash_notMem_toDigits _)).mp h
    obtain ⟨h, haddress⟩ :=
      (append_slash_inj (Hex.slash_notMem_encode _) (Hex.slash_notMem_encode _)).mp h
    obtain ⟨hfront, hchain⟩ :=
      (append_slash_inj (slash_notMem_toDigits _) (slash_notMem_toDigits _)).mp h
    obtain ⟨⟨⟨chain⟩, address⟩, sequence⟩ := c
    obtain ⟨⟨⟨chain'⟩, address'⟩, sequence'⟩ := d
    obtain rfl := UInt16.toNat_inj.mp (toDigits_inj.mp hchain)
    obtain rfl := Block.toHex_inj.mp (String.toList_inj.mp haddress)
    obtain rfl := UInt64.toNat_inj.mp (toDigits_inj.mp hsequence)
    exact ⟨hfront, rfl⟩
  · rintro ⟨rfl, rfl⟩
    rfl

/-- Different coordinates have different paths. -/
theorem path_inj : c.path = d.path ↔ c = d := by
  constructor
  · intro h
    have hchars : [] ++ '/' :: c.path.toList = [] ++ '/' :: d.path.toList := by rw [h]
    exact (append_slash_path_inj.mp hchars).2
  · exact congrArg path

end Coordinate

/-- Whoever is asked, the address tells the message, and whom it is asked of
    up to slashes at the end. -/
theorem Backfill.address_inj {peer neighbour : String} {c d : Coordinate} :
    address peer c = address neighbour d ↔
      Text.dropTrailing '/' peer = Text.dropTrailing '/' neighbour ∧ c = d := by
  have hlist : ∀ (peer : String) (c : Coordinate), (address peer c).toList
      = ((Text.dropTrailing '/' peer).toList ++ "/v1/signed_vaa".toList)
        ++ '/' :: c.path.toList := by
    intro peer c
    simp only [address, String.toList_append, List.append_assoc]
    rfl
  rw [← String.toList_inj, hlist, hlist, Coordinate.append_slash_path_inj,
    List.append_cancel_right_eq, String.toList_inj]

/-- Different reports look different. -/
theorem MissingReport.toJson_inj {r r' : MissingReport} : r.toJson = r'.toJson ↔ r = r' := by
  constructor
  · intro h
    obtain ⟨missing, first, last⟩ := r
    obtain ⟨missing', first', last'⟩ := r'
    have hfields : missing.map (fun c => Json.text c.path)
          = missing'.map (fun c => Json.text c.path) ∧
        first.toNat = first'.toNat ∧ last.toNat = last'.toNat := by
      simpa [toJson, Json.record, Json.text, Json.nat, Int.ofNat_inj] using h
    obtain ⟨hmissing, hfirst, hlast⟩ := hfields
    have hentry : ∀ c d : Coordinate, Json.text c.path = Json.text d.path → c = d :=
      fun c d h => Coordinate.path_inj.mp (Option.some.inj (Json.string.inj h))
    obtain rfl := (List.map_inj_right hentry).mp hmissing
    obtain rfl := UInt64.toNat_inj.mp hfirst
    obtain rfl := UInt64.toNat_inj.mp hlast
    rfl
  · exact congrArg _

/-! ## Accepted emitters -/

/-- A wide number is narrowed to the chain with that number. -/
theorem ChainId.ofUInt32?_eq_some_iff {wide : UInt32} {chain : ChainId} :
    ofUInt32? wide = some chain ↔ chain.id.toNat = wide.toNat := by
  unfold ofUInt32?
  by_cases hwidth : wide.toNat < UInt16.size
  · have hnarrow : wide.toUInt16.toNat = wide.toNat := Nat.mod_eq_of_lt hwidth
    rw [if_pos hwidth]
    constructor
    · intro h
      cases h
      exact hnarrow
    · intro h
      obtain ⟨id⟩ := chain
      obtain rfl := UInt16.toNat_inj.mp (hnarrow.trans h.symm)
      rfl
  · rw [if_neg hwidth]
    refine iff_of_false nofun fun h => hwidth ?_
    rw [← h]
    exact chain.id.toNat_lt_size

/-- The chain that is accepted has the given number. -/
theorem ChainId.ofRequest_eq_ok_iff {field : String} {wide : UInt32} {chain : ChainId} :
    ofRequest field wide = .ok chain ↔ chain.id.toNat = wide.toNat := by
  rw [← ofUInt32?_eq_some_iff, ofRequest]
  cases ofUInt32? wide with
  | none => exact iff_of_false nofun nofun
  | some accepted => simp

/-- The emitter that is accepted has the given number, and the address that
    is read. -/
theorem Emitter.ofRequest_eq_ok_iff {chain : UInt32} {text : String} {e : Emitter} :
    ofRequest chain text = .ok e ↔
      e.chain.id.toNat = chain.toNat ∧ Bytes32.read text = .ok e.address := by
  rw [← @ChainId.ofRequest_eq_ok_iff "emitter_chain"]
  unfold ofRequest
  cases hchain : ChainId.ofRequest "emitter_chain" chain with
  | error failure => simp
  | ok accepted =>
      cases haddress : Bytes32.read text with
      | error fault => simp
      | ok address =>
          obtain ⟨chain', address'⟩ := e
          simp

/-- Of the text of an address nothing matters but what it is read as. -/
theorem Emitter.ofRequest_congr {text other : String} (h : Bytes32.read text = Bytes32.read other)
    (chain : UInt32) : ofRequest chain text = ofRequest chain other := by
  unfold ofRequest
  rw [h]

end BridgeGuardian
