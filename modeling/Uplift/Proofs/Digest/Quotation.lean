import Uplift.Digest.Canonical
import Uplift.Json

/-!
# Quoted texts are read back

The JSON reader takes a quoted text apart again: it finds the characters that were quoted, and
leaves what stands behind the closing quote. So two quoted texts never read the same, whatever
follows them.
-/

set_option autoImplicit false

namespace Uplift.Json

private theorem codeUnit_append {digits : List Char} {values : List Nat} (four : digits.length = 4)
    (read : digits.mapM hexValue? = some values) (rest : List Char) :
    codeUnit.run (digits ++ rest) =
      .ok (values.foldl (fun total value => total * 16 + value) 0, rest) := by
  have taken : (digits ++ rest).take 4 = digits := by rw [← four, List.take_left]
  have left : (digits ++ rest).drop 4 = rest := by rw [← four, List.drop_left]
  simp only [codeUnit, StateT.run_bind, StateT.run_get, pure_bind, taken, left, four, read]
  rfl

private theorem codeUnit_control {code : Nat} (control : code < 0x20) (rest : List Char) :
    codeUnit.run (Text.hexDigits 4 code ++ rest) = .ok (code, rest) := by
  have digits : ∀ code < 0x20, (Text.hexDigits 4 code).length = 4 ∧ ∃ values,
      (Text.hexDigits 4 code).mapM hexValue? = some values ∧
        values.foldl (fun total value => total * 16 + value) 0 = code := by
    decide
  obtain ⟨four, values, read, total⟩ := digits code control
  rw [codeUnit_append four read, total]

private theorem escaped_control {char : Char} (control : char.toNat < 0x20) (rest : List Char) :
    escaped.run ('u' :: Text.hexDigits 4 char.toNat ++ rest) = .ok (char, rest) := by
  change escapedCode.run (Text.hexDigits 4 char.toNat ++ rest) = .ok (char, rest)
  simp only [escapedCode, StateT.run_bind, codeUnit_control control]
  change StateT.run (ite _ _ _) _ = _
  rw [if_neg (by omega), if_neg (by omega), Char.ofNat_toNat]
  rfl

/-- A character is written as it stands, or as an escape that is read as this character. -/
private theorem escapeChar_cases (char : Char) :
    (Canonical.escapeChar char = [char] ∧ char ≠ '"' ∧ char ≠ '\\' ∧ ¬ char < ' ') ∨
      ∃ code, Canonical.escapeChar char = '\\' :: code ∧
        ∀ rest, escaped.run (code ++ rest) = .ok (char, rest) := by
  by_cases named : char ∈ ['"', '\\', '\n', '\r', '\t', '\x08', '\x0c']
  · simp only [List.mem_cons, List.not_mem_nil, or_false] at named
    rcases named with rfl | rfl | rfl | rfl | rfl | rfl | rfl
    all_goals exact .inr ⟨_, rfl, fun _ => rfl⟩
  · simp only [List.mem_cons, List.not_mem_nil, or_false, not_or] at named
    obtain ⟨quote, backslash, newline, carriage, tab, backspace, feed⟩ := named
    simp only [Canonical.escapeChar, quote, backslash, newline, carriage, tab, backspace, feed,
      if_false]
    split
    · rename_i control
      exact .inr ⟨_, rfl, escaped_control control⟩
    · rename_i printed
      exact .inl ⟨rfl, quote, backslash, printed⟩

/-- The reader takes one written character at a time. -/
private theorem textChars_escapeChar (fuel : Nat) (char : Char) (rest : List Char) :
    (textChars (fuel + 1)).run (Canonical.escapeChar char ++ rest) =
      ((textChars fuel).run rest).map fun found => (char :: found.1, found.2) := by
  rcases escapeChar_cases char with ⟨plain, quote, backslash, printed⟩ | ⟨code, escape, read⟩
  · rw [plain, List.singleton_append, textChars]
    simp only [StateT.run_bind, next?, StateT.run_get, pure_bind, List.head?_cons, StateT.run_pure,
      printed, if_false, skip, StateT.run_modify, List.tail_cons]
    cases (textChars fuel).run rest <;> rfl
  · rw [escape, List.cons_append, textChars]
    simp only [StateT.run_bind, next?, StateT.run_get, pure_bind, List.head?_cons, StateT.run_pure,
      skip, StateT.run_modify, List.tail_cons, read]
    change (((textChars fuel).run rest).bind fun found => .ok (char :: found.1, found.2)) = _
    cases (textChars fuel).run rest <;> rfl

/-- What was quoted is read, and what stands behind the closing quote is left. -/
theorem textChars_quoted {fuel : Nat} (chars rest : List Char) (enough : chars.length < fuel) :
    (textChars fuel).run (chars.flatMap Canonical.escapeChar ++ '"' :: rest) =
      .ok (chars, rest) := by
  induction chars generalizing fuel with
  | nil =>
      obtain ⟨fuel, rfl⟩ := Nat.exists_eq_add_one_of_ne_zero (Nat.ne_of_gt enough)
      rfl
  | cons char chars ih =>
      obtain ⟨fuel, rfl⟩ := Nat.exists_eq_add_one_of_ne_zero (Nat.ne_zero_of_lt enough)
      rw [List.flatMap_cons, List.append_assoc, textChars_escapeChar,
        ih (Nat.lt_of_succ_lt_succ enough)]
      rfl

end Json

namespace Canonical

theorem toList_quote (text : String) :
    (quote text).toList = '"' :: (text.toList.flatMap escapeChar ++ ['"']) := by
  rw [quote, String.toList_ofList, List.cons_append]

theorem quote_append_inj {text other : String} {rest more : List Char}
    (same : (quote text).toList ++ rest = (quote other).toList ++ more) :
    text = other ∧ rest = more := by
  rw [toList_quote, toList_quote, List.cons_append, List.cons_append, List.append_assoc,
    List.append_assoc] at same
  have bodies := List.tail_eq_of_cons_eq same
  -- Both are read with a bound that is enough for either.
  have enough := Nat.lt_succ_of_le (Nat.le_max_left text.toList.length other.toList.length)
  have otherEnough := Nat.lt_succ_of_le (Nat.le_max_right text.toList.length other.toList.length)
  have read := Json.textChars_quoted text.toList rest enough
  have otherRead := Json.textChars_quoted other.toList more otherEnough
  rw [List.singleton_append] at bodies
  rw [bodies] at read
  have found := Except.ok.inj (read.symm.trans otherRead)
  exact ⟨String.toList_inj.mp (congrArg Prod.fst found), congrArg Prod.snd found⟩

end Canonical

end Uplift
