import Uplift.Proofs.Digest.Decoding

/-!
# What a digest says about a document

Canonical text identifies a plain document up to the order of entries. What is digested is that text
in UTF-8, and the digest is shown in hexadecimal; neither loses anything. So different documents
have the same digest only if SHA-256 maps two messages to one digest.
-/

set_option autoImplicit false

namespace Uplift

namespace Sha256

/-- Two different messages have the same digest. -/
def Collide (message other : List UInt8) : Prop :=
  message ≠ other ∧ digest message = digest other

theorem hexText_injective : Function.Injective hexText := by
  have digits : ∀ one < 16, ∀ other < 16,
      Nat.digitChar one = Nat.digitChar other → one = other := by
    decide
  intro bytes others same
  have chars := String.ofList_inj.mp same
  clear same
  induction bytes generalizing others with
  | nil =>
      cases others with
      | nil => rfl
      | cons other others => cases chars
  | cons byte bytes ih =>
      cases others with
      | nil => cases chars
      | cons other others =>
          rw [List.flatMap_cons, List.flatMap_cons, List.cons_append, List.cons_append] at chars
          obtain ⟨high, behindHigh⟩ := List.cons.inj chars
          obtain ⟨low, later⟩ := List.cons.inj behindHigh
          have bound := byte.toNat_lt
          have otherBound := other.toNat_lt
          have sameHigh := digits _ (by omega) _ (by omega) high
          have sameLow := digits _ (by omega) _ (by omega) low
          have sameByte : byte = other := UInt8.toNat_inj.mp (by omega)
          rw [sameByte, ih later]

end Sha256

namespace Digest

/-- The bytes that are digested. -/
def message (value : Value) : List UInt8 :=
  (Canonical.text value).toUTF8.toList

private theorem toList_loop (bytes : ByteArray) (index : Nat) (done : List UInt8) :
    ByteArray.toList.loop bytes index done = done.reverse ++ bytes.data.toList.drop index := by
  fun_induction ByteArray.toList.loop bytes index done with
  | case1 index done inside ih =>
      have bound : index < bytes.data.toList.length := inside
      have byte : bytes.get! index = bytes.data.toList[index] :=
        getElem!_pos bytes.data index inside
      rw [ih, List.reverse_cons, List.append_assoc, List.drop_eq_getElem_cons bound, byte]
      rfl
  | case2 index done outside =>
      have bound : bytes.data.toList.length ≤ index := Nat.le_of_not_lt outside
      rw [List.drop_eq_nil_of_le bound, List.append_nil]

private theorem toList_bytes (bytes : ByteArray) : bytes.toList = bytes.data.toList := by
  rw [ByteArray.toList, toList_loop, List.reverse_nil, List.nil_append, List.drop_zero]

theorem message_eq_iff {value other : Value} :
    message value = message other ↔ Canonical.text value = Canonical.text other := by
  constructor
  · intro same
    rw [message, message, toList_bytes, toList_bytes] at same
    exact String.toByteArray_inj.mp (ByteArray.ext (Array.toList_inj.mp same))
  · intro same
    rw [message, same, message]

theorem digest_message_of_ofObject {subject : Subject} {value : Value} {hash : String}
    (done : ofObject subject value = .ok hash) :
    Sha256.hexText (Sha256.digest (message value)) = hash := by
  cases value with
  | object entries =>
      rw [ofObject] at done
      split at done
      · exact Except.ok.inj done
      · cases done
  | _ => cases done

/-- Plain documents have the same canonical text exactly if they are equal up to the order of
entries. Others that share a digest make SHA-256 collide. -/
theorem identifies {value other : Value} (plain : value.Plain) (otherPlain : other.Plain) :
    (Canonical.text value = Canonical.text other ↔ Value.Alike value other) ∧
      ∀ subject otherSubject hash, ofObject subject value = .ok hash →
        ofObject otherSubject other = .ok hash → ¬ Value.Alike value other →
          Sha256.Collide (message value) (message other) := by
  have texts := Canonical.text_eq_iff_alike plain otherPlain
  refine ⟨texts, fun subject otherSubject hash done otherDone different => ⟨?_, ?_⟩⟩
  · intro same
    exact different (texts.mp (message_eq_iff.mp same))
  · have shown := digest_message_of_ofObject done
    rw [← digest_message_of_ofObject otherDone] at shown
    exact Sha256.hexText_injective shown

/-- An integer and the text of its digits are told apart, entries in another order are not. -/
theorem identifies_reordered :
    Value.Alike (.object [(.text "a", .int 1), (.text "b", .array [.text "1"])])
        (.object [(.text "b", .array [.text "1"]), (.text "a", .int 1)]) ∧
      ¬ Value.Alike (.object [(.text "a", .int 1)]) (.object [(.text "a", .text "1")]) := by
  have single (value : Value) (plain : value.Plain) : Value.Plain (.object [(.text "a", value)]) :=
    .object (List.nodup_singleton _) (by simp [Entries.TextKeys]) (by simpa using plain)
  have items : Value.Plain (.array [.text "1"]) := .array (by simpa using .text "1")
  have first : Value.Plain (.object [(.text "a", .int 1), (.text "b", .array [.text "1"])]) :=
    .object (by simp [Entries.DistinctKeys, Scalar.key]) (by simp [Entries.TextKeys])
      (by simpa using ⟨.int 1, items⟩)
  have second : Value.Plain (.object [(.text "b", .array [.text "1"]), (.text "a", .int 1)]) :=
    .object (by simp [Entries.DistinctKeys, Scalar.key]) (by simp [Entries.TextKeys])
      (by simpa using ⟨items, .int 1⟩)
  constructor
  · exact (identifies first second).1.mp (by decide)
  · rw [← (identifies (single _ (.int 1)) (single _ (.text "1"))).1]
    decide

end Digest

end Uplift
