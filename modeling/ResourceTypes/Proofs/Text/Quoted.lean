import Mathlib.Data.List.TakeWhile
import ResourceTypes.Text.Digits
import ResourceTypes.Text.Quoted

/-!
Quoted texts can be read back. What is written between quotes tells the
characters one by one, whichever of them are hidden, and no character is
written so that it ends the quotes.
-/

namespace ResourceTypes.Text

/-! ### Hexadecimal digits -/

theorem digit?_digitChar : ∀ digit < 16, digit? digit.digitChar = some digit := by decide

theorem digitChar_ne : ∀ digit < 16, digit.digitChar ∉ ['"', ']', '\x7d'] := by decide

/-- The characters that write a number are digits of its base. -/
theorem exists_digit_of_mem {base n : Nat} {c : Char} (hbase : 1 < base)
    (h : c ∈ Nat.toDigits base n) : ∃ digit < base, c = digit.digitChar := by
  induction n using Nat.strong_induction_on with
  | _ n ih =>
      rw [Nat.toDigits_eq_if hbase] at h
      split at h
      · next hlast => exact ⟨n, hlast, List.mem_singleton.1 h⟩
      · next hmore =>
        have hless : n / base < n := Nat.div_lt_self (by omega) hbase
        rcases List.mem_append.1 h with h | h
        · exact ih _ hless h
        · exact ⟨n % base, Nat.mod_lt _ (by omega), List.mem_singleton.1 h⟩

/-- Digits hold no mark that ends what they stand in. -/
theorem not_mem_toDigits {base n : Nat} (hbase : 1 < base) (hsmall : base ≤ 16) {mark : Char}
    (hmark : mark ∈ ['"', ']', '\x7d']) : mark ∉ Nat.toDigits base n := by
  intro hmem
  obtain ⟨digit, hdigit, rfl⟩ := exists_digit_of_mem hbase hmem
  exact digitChar_ne digit (by omega) hmark

/-- The digits of a number are read as that number. -/
theorem number?_toDigits {base : Nat} (hbase : 1 < base) (hsmall : base ≤ 16) (n : Nat) :
    number? base (Nat.toDigits base n) = some n := by
  have hread : (Nat.toDigits base n).foldlM (appendDigit? base) 0 = some n := by
    induction n using Nat.strong_induction_on with
    | _ n ih =>
        have hdigit (front : Nat) {digit : Nat} (hdigit : digit < base) :
            appendDigit? base front digit.digitChar = some (base * front + digit) := by
          simp [appendDigit?, digit?_digitChar digit (by omega), hdigit]
        rw [Nat.toDigits_eq_if hbase]
        split
        · next hlast => simp [hdigit 0 hlast]
        · next hmore =>
          have hless : n / base < n := Nat.div_lt_self (by omega) hbase
          have hrest : n % base < base := Nat.mod_lt _ (by omega)
          simp [ih _ hless, hdigit _ hrest, Nat.div_add_mod]
  rw [number?, if_neg (by simp [Nat.toDigits_ne_nil]), hread]

/-! ### Characters -/

/-- The character that a letter stands for behind a backslash. -/
def escaped? : Char → Option Char
  | '"' => some '"'
  | '\\' => some '\\'
  | 'n' => some '\n'
  | 't' => some '\t'
  | 'r' => some '\r'
  | '0' => some '\x00'
  | _ => none

/-- Reads the first character of what is written between quotes, and leaves the
rest. There is none where the quotes end. -/
def unquoteChar? : List Char → Option (Char × List Char)
  | '\\' :: 'u' :: '\x7b' :: rest =>
    (number? 16 (rest.takeWhile (· ≠ '\x7d'))).map fun n =>
      (Char.ofNat n, (rest.dropWhile (· ≠ '\x7d')).tail)
  | '\\' :: letter :: rest => (escaped? letter).map (·, rest)
  | '"' :: _ => none
  | c :: rest => some (c, rest)
  | [] => none

variable {hidden : Char → Bool} {xs ys : List Char}

theorem unquoteChar?_numbered (c : Char) (rest : List Char) :
    unquoteChar? (numbered c ++ rest) = some (c, rest) := by
  have hend : ∀ digit ∈ Nat.toDigits 16 c.toNat, decide (digit ≠ '\x7d') = true := by
    intro digit hmem
    have hne : digit ≠ '\x7d' := by
      rintro rfl
      exact not_mem_toDigits (by decide) (by decide) (by decide) hmem
    simpa using hne
  have hshape : numbered c ++ rest =
      '\\' :: 'u' :: '\x7b' :: (Nat.toDigits 16 c.toNat ++ '\x7d' :: rest) := by
    simp [numbered]
  rw [hshape, unquoteChar?, List.takeWhile_append_of_pos hend, List.dropWhile_append_of_pos hend,
    List.takeWhile_cons_of_neg (by simp), List.dropWhile_cons_of_neg (by simp), List.append_nil,
    number?_toDigits (by decide) (by decide)]
  simp

/-- A character is read back from how it is written, hidden or not. -/
theorem unquoteChar?_quoteChar (c : Char) (rest : List Char) :
    unquoteChar? (quoteChar hidden c ++ rest) = some (c, rest) := by
  unfold quoteChar
  split_ifs with hquote hbackslash hline htab hreturn hnull hhidden
  · subst hquote; rfl
  · subst hbackslash; rfl
  · subst hline; rfl
  · subst htab; rfl
  · subst hreturn; rfl
  · subst hnull; rfl
  · exact unquoteChar?_numbered c rest
  · rw [List.singleton_append]
    unfold unquoteChar?
    split <;> simp_all

/-- Where the quotes end is told from what is written, and so are the characters before. -/
theorem flatMap_quoteChar_inj {cs ds : List Char}
    (h : cs.flatMap (quoteChar hidden) ++ '"' :: xs = ds.flatMap (quoteChar hidden) ++ '"' :: ys) :
    cs = ds ∧ xs = ys := by
  induction cs generalizing ds with
  | nil =>
      cases ds with
      | nil => exact ⟨rfl, (List.cons.inj h).2⟩
      | cons d ds =>
          have hread := congrArg unquoteChar? h
          rw [List.flatMap_cons, List.append_assoc, unquoteChar?_quoteChar] at hread
          cases hread
  | cons c cs ih =>
      have hread := congrArg unquoteChar? h
      rw [List.flatMap_cons, List.append_assoc, unquoteChar?_quoteChar] at hread
      cases ds with
      | nil => cases hread
      | cons d ds =>
          rw [List.flatMap_cons, List.append_assoc, unquoteChar?_quoteChar] at hread
          obtain ⟨rfl, hrest⟩ := Prod.mk.inj (Option.some.inj hread)
          obtain ⟨rfl, hend⟩ := ih hrest
          exact ⟨rfl, hend⟩

theorem toList_quote (s : String) :
    (quote hidden s).toList = '"' :: (s.toList.flatMap (quoteChar hidden) ++ ['"']) := by
  rw [quote, String.toList_ofList, List.cons_append]

/-- A quoted text is told from the beginning of what it stands in. -/
theorem quote_append_inj {s t : String}
    (h : (quote hidden s).toList ++ xs = (quote hidden t).toList ++ ys) : s = t ∧ xs = ys := by
  rw [toList_quote, toList_quote, List.cons_append, List.cons_append, List.append_assoc,
    List.append_assoc] at h
  obtain ⟨hchars, hend⟩ := flatMap_quoteChar_inj (List.cons.inj h).2
  exact ⟨String.toList_inj.1 hchars, hend⟩

end ResourceTypes.Text
