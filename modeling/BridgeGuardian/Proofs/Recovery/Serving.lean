import BridgeGuardian.Proofs.Json.Printed
import BridgeGuardian.Recovery.Backfill

/-! # Serving a message — the body in which it is read back

    A peer serves a message in base 64, as the one field of an object.
    Every message can be served that way: nothing in base 64 has to be
    escaped, so the text comes out as it was put in, and its characters are
    read back as the same octets. -/

namespace BridgeGuardian

/-! ## Six bits at a time -/

namespace Base64

theorem digitValue?_digit {value : Nat} (h : value < 64) :
    digitValue? (digit value) = some value := by
  have hall : ∀ v : Fin 64, digitValue? (digit v) = some v.val := by decide
  exact hall ⟨value, h⟩

/-- There are no other characters than those of six bits. -/
theorem exists_digit_eq (value : Nat) : ∃ v : Fin 64, digit value = digit v := by
  by_cases h : value < 64
  · exact ⟨⟨value, h⟩, rfl⟩
  · refine ⟨63, ?_⟩
    unfold digit
    rw [if_neg (by omega), if_neg (by omega), if_neg (by omega), if_neg (by omega)]
    rfl

theorem digit_ne_fill (value : Nat) : digit value ≠ '=' := by
  have hall : ∀ v : Fin 64, digit v ≠ '=' := by decide
  obtain ⟨v, hv⟩ := exists_digit_eq value
  rw [hv]
  exact hall v

theorem isPlain_digit (value : Nat) : Json.IsPlain (digit value) := by
  have hall : ∀ v : Fin 64, Json.IsPlain (digit v) := by decide
  obtain ⟨v, hv⟩ := exists_digit_eq value
  rw [hv]
  exact hall v

/-- Octets are read back as they were written. -/
theorem decodeChars_encodeChars (bytes : Bytes) :
    decodeChars (encodeChars bytes) = some bytes := by
  induction bytes using encodeChars.induct with
  | case1 => rfl
  | case2 a =>
      have ha : a.toNat < 256 := a.toNat_lt_size
      have hzero : a.toNat % 4 * 16 % 16 = 0 := by omega
      have hfirst : a.toNat / 4 * 4 + a.toNat % 4 * 16 / 16 = a.toNat := by omega
      rw [encodeChars, decodeChars.eq_2, digitValue?_digit (by omega), digitValue?_digit (by omega)]
      simp only [Option.bind_eq_bind, Option.bind_some, hzero, hfirst, if_true,
        UInt8.ofNat_toNat]
  | case3 a b =>
      have ha : a.toNat < 256 := a.toNat_lt_size
      have hb : b.toNat < 256 := b.toNat_lt_size
      have hzero : b.toNat % 16 * 4 % 4 = 0 := by omega
      have hfirst : a.toNat / 4 * 4 + (a.toNat % 4 * 16 + b.toNat / 16) / 16 = a.toNat := by omega
      have hsecond : (a.toNat % 4 * 16 + b.toNat / 16) % 16 * 16 + b.toNat % 16 * 4 / 4
          = b.toNat := by omega
      rw [encodeChars, decodeChars.eq_3 _ _ _ (digit_ne_fill _), digitValue?_digit (by omega),
        digitValue?_digit (by omega), digitValue?_digit (by omega)]
      simp only [Option.bind_eq_bind, Option.bind_some, hzero, hfirst, hsecond, if_true,
        UInt8.ofNat_toNat]
  | case4 a b c rest ih =>
      have ha : a.toNat < 256 := a.toNat_lt_size
      have hb : b.toNat < 256 := b.toNat_lt_size
      have hc : c.toNat < 256 := c.toNat_lt_size
      have hfirst : a.toNat / 4 * 4 + (a.toNat % 4 * 16 + b.toNat / 16) / 16 = a.toNat := by omega
      have hsecond : (a.toNat % 4 * 16 + b.toNat / 16) % 16 * 16 +
          (b.toNat % 16 * 4 + c.toNat / 64) / 4 = b.toNat := by omega
      have hthird : (b.toNat % 16 * 4 + c.toNat / 64) % 4 * 64 + c.toNat % 64 = c.toNat := by
        omega
      -- a full group does not end in the character that fills the last one
      have hfull := digit_ne_fill (c.toNat % 64)
      rw [encodeChars, decodeChars.eq_4 _ _ _ _ _ (fun _ h => absurd h hfull)
        (fun h => absurd h hfull), ih, digitValue?_digit (by omega), digitValue?_digit (by omega),
        digitValue?_digit (by omega), digitValue?_digit (by omega)]
      simp only [Option.bind_eq_bind, Option.bind_some, hfirst, hsecond, hthird,
        UInt8.ofNat_toNat]

theorem isPlain_of_mem_encodeChars (bytes : Bytes) :
    ∀ c ∈ encodeChars bytes, Json.IsPlain c := by
  have hfill : Json.IsPlain '=' := by decide
  induction bytes using encodeChars.induct with
  | case1 => exact List.forall_mem_nil _
  | case2 a =>
      simp only [encodeChars, List.forall_mem_cons]
      exact ⟨isPlain_digit _, isPlain_digit _, hfill, hfill, List.forall_mem_nil _⟩
  | case3 a b =>
      simp only [encodeChars, List.forall_mem_cons]
      exact ⟨isPlain_digit _, isPlain_digit _, isPlain_digit _, hfill, List.forall_mem_nil _⟩
  | case4 a b c rest ih =>
      simp only [encodeChars, List.forall_mem_cons]
      exact ⟨isPlain_digit _, isPlain_digit _, isPlain_digit _, isPlain_digit _, ih⟩

end Base64

/-! ## The body -/

namespace PeerVerdict

open Json.Shape (Found slot)

theorem messageShape_record {text : String} {message : Bytes} (depth : Nat)
    (h : Base64.decode text = some message) :
    messageShape (depth + 1) (.record [("vaaBytes", .text text)]) = .ok message := by
  have hfield : Json.Shape.record [slot "vaaBytes" Json.Shape.text]
      (fun found => found.required "vaaBytes" Json.Shape.text) (depth + 1)
      (.record [("vaaBytes", .text text)]) = .ok text := by
    simp only [Json.record, Json.text, List.map_cons, List.map_nil, Json.Shape.record,
      Json.Shape.walk, slot, List.find?_cons, beq_self_eq_true, Found.required, Found.get?,
      Json.Shape.text, Option.map_some]
    rfl
  rw [messageShape, Json.Shape.refine, hfield]
  simp only [bind, Except.bind, h, pure, Except.pure]

/-- Every message has a body from which it is read. -/
theorem decode_messageShape (message : Bytes) :
    Json.decode messageShape ("\x7b\"vaaBytes\":\"" ++ Base64.encode message ++ "\"\x7d")
      = .ok message := by
  have hname : ∀ c ∈ "vaaBytes".toList, Json.IsPlain c := by
    have hall : "vaaBytes".toList.all (fun c => decide (Json.IsPlain c)) = true := by decide
    exact fun c hc => of_decide_eq_true (List.all_eq_true.mp hall c hc)
  have htext : ∀ c ∈ (Base64.encode message).toList, Json.IsPlain c := by
    rw [Base64.encode, String.toList_ofList]
    exact Base64.isPlain_of_mem_encodeChars message
  have hdecode : Base64.decode (Base64.encode message) = some message := by
    rw [Base64.decode, Base64.encode, String.toList_ofList, Base64.decodeChars_encodeChars]
  let body := Json.record [("vaaBytes", .text (Base64.encode message))]
  -- nothing in the body has to be escaped
  have hprint : "\x7b\"vaaBytes\":\"" ++ Base64.encode message ++ "\"\x7d" = Json.print body := by
    show _ = "" ++ "\x7b" ++ Json.printString "vaaBytes" ++ ":" ++
      Json.printString (Base64.encode message) ++ "\x7d"
    rw [Json.printString_of_isPlain hname, Json.printString_of_isPlain htext]
    apply String.toList_injective
    simp only [String.toList_append, List.append_assoc]
    rfl
  have hexact : Json.IsExact body := .record (List.forall_mem_singleton.mpr (.text _))
  rw [hprint, Json.decode_print hexact]
  exact messageShape_record 126 hdecode

end PeerVerdict

/-- A reply that serves a message. -/
def Delivers (message : Bytes) (reply : NetworkReply) : Prop :=
  ∃ body, reply = .ok ⟨200, .ok body⟩ ∧
    Json.decode PeerVerdict.messageShape body = .ok message

theorem delivers_of_body (message : Bytes) :
    Delivers message
      (.ok ⟨200, .ok ("\x7b\"vaaBytes\":\"" ++ Base64.encode message ++ "\"\x7d")⟩) :=
  ⟨_, rfl, PeerVerdict.decode_messageShape message⟩

/-- Who is asked for a message with its coordinate and delivers it, serves
    it. -/
theorem PeerVerdict.ofReply_of_delivers {c : Coordinate} {message : Bytes} {v : Vaa}
    {reply : NetworkReply} (hv : Vaa.parse message = .ok v) (hc : v.coordinate = c)
    (h : Delivers message reply) : ofReply c reply = .serving message := by
  obtain ⟨body, rfl, hdecode⟩ := h
  show ofBody c (.ok body) = _
  rw [ofBody, hdecode]
  show ofMessage c message = _
  rw [ofMessage, hv]
  exact if_pos hc

end BridgeGuardian
