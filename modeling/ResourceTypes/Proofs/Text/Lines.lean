import ResourceTypes.Json.Text
import ResourceTypes.Proofs.Json.Same
import ResourceTypes.Proofs.Text.Quoted

/-!
Lines of texts. A text has a line more than it has line feeds, and joining texts
by line feeds joins their lines. Whatever is written between quotes, as a number
or as a JSON value on one line holds no line feed.
-/

namespace ResourceTypes

namespace Text

/-- How many line feeds a text holds. -/
def breaks (text : String) : Nat := text.toList.count '\n'

/-- How many line feeds several texts hold together. -/
def totalBreaks : List String → Nat
  | [] => 0
  | text :: rest => breaks text + totalBreaks rest

/-- What stands between the line feeds of a text. -/
def pieces (text : String) : List String := (text.toList.splitOn '\n').map String.ofList

/-- The lines of a text, of which an empty text has none. -/
def lines (text : String) : List String := if text = "" then [] else pieces text

/-! ### Line feeds -/

section Breaks

variable {text separator : String}

theorem breaks_eq_zero_iff : breaks text = 0 ↔ '\n' ∉ text.toList := List.count_eq_zero

theorem breaks_eq_zero (h : '\n' ∉ text.toList) : breaks text = 0 := breaks_eq_zero_iff.2 h

theorem breaks_ofList {chars : List Char} (h : '\n' ∉ chars) :
    breaks (String.ofList chars) = 0 :=
  breaks_eq_zero (by rwa [String.toList_ofList])

@[simp] theorem breaks_append (front back : String) :
    breaks (front ++ back) = breaks front + breaks back := by
  rw [breaks, String.toList_append, List.count_append, breaks, breaks]

theorem breaks_behind {front : List Char} (hfront : '\n' ∉ front) (text : String) :
    breaks (String.ofList front ++ text) = breaks text := by
  rw [breaks_append, breaks_ofList hfront, Nat.zero_add]

theorem breaks_before {back : List Char} (hback : '\n' ∉ back) (text : String) :
    breaks (text ++ String.ofList back) = breaks text := by
  rw [breaks_append, breaks_ofList hback, Nat.add_zero]

theorem breaks_between {front back : List Char} (hfront : '\n' ∉ front) (hback : '\n' ∉ back)
    (text : String) : breaks (String.ofList front ++ text ++ String.ofList back) = breaks text := by
  rw [breaks_before hback, breaks_behind hfront]

theorem totalBreaks_append (texts others : List String) :
    totalBreaks (texts ++ others) = totalBreaks texts + totalBreaks others := by
  induction texts with
  | nil => simp [totalBreaks]
  | cons text rest ih => rw [List.cons_append, totalBreaks, ih, totalBreaks, Nat.add_assoc]

theorem totalBreaks_singleton (text : String) : totalBreaks [text] = breaks text := rfl

/-- Texts that break at some names alone hold together the line feeds of all these names. -/
theorem totalBreaks_map {α : Type} {shown : α → String} {names : α → List String}
    (h : ∀ x, breaks (shown x) = totalBreaks (names x)) (xs : List α) :
    totalBreaks (xs.map shown) = totalBreaks (xs.flatMap names) := by
  induction xs with
  | nil => rfl
  | cons x rest ih =>
      rw [List.map_cons, totalBreaks, h, ih, List.flatMap_cons, totalBreaks_append]

theorem totalBreaks_eq_zero_iff {texts : List String} :
    totalBreaks texts = 0 ↔ ∀ text ∈ texts, breaks text = 0 := by
  induction texts with
  | nil => simp [totalBreaks]
  | cons text rest ih => rw [totalBreaks, Nat.add_eq_zero_iff, ih, List.forall_mem_cons]

theorem breaks_join (texts : List String) : breaks (String.join texts) = totalBreaks texts := by
  induction texts with
  | nil => rfl
  | cons text rest ih => rw [String.join_cons, breaks_append, ih, totalBreaks]

/-- A separator without line feeds adds none to those of what it separates. -/
theorem breaks_intercalate (hseparator : breaks separator = 0) (texts : List String) :
    breaks (separator.intercalate texts) = totalBreaks texts := by
  induction texts with
  | nil => rfl
  | cons text rest ih =>
      cases rest with
      | nil => rw [String.intercalate_singleton, totalBreaks_singleton]
      | cons next rest =>
          rw [String.intercalate_cons_cons, breaks_append, breaks_append, ih, hseparator,
            Nat.add_zero]
          rfl

end Breaks

/-! ### Lines -/

section Lines

variable {text : String} {texts : List String}

theorem length_pieces (text : String) : (pieces text).length = breaks text + 1 := by
  rw [pieces, List.length_map, breaks]
  induction text.toList with
  | nil => rfl
  | cons c rest ih =>
      rw [List.splitOn_cons_eq_if_modifyHead, List.count_cons]
      split
      · rw [List.length_cons, ih]
      · rw [List.length_modifyHead, ih, Nat.add_zero]

theorem pieces_append (front back : String) :
    pieces (front ++ "\n" ++ back) = pieces front ++ pieces back := by
  have hchars : (front ++ "\n" ++ back).toList = front.toList ++ '\n' :: back.toList := by simp
  rw [pieces, hchars, List.splitOn_append_cons_self, List.map_append, pieces, pieces]

theorem pieces_intercalate (text : String) (rest : List String) :
    pieces ("\n".intercalate (text :: rest)) = (text :: rest).flatMap pieces := by
  induction rest generalizing text with
  | nil => simp
  | cons next rest ih =>
      rw [String.intercalate_cons_cons, pieces_append, ih, ← List.flatMap_cons]

theorem lines_eq_pieces (h : text ≠ "") : lines text = pieces text := if_neg h

theorem length_lines (h : text ≠ "") : (lines text).length = breaks text + 1 := by
  rw [lines_eq_pieces h, length_pieces]

/-- A text without line feeds is its only line. -/
theorem lines_eq_singleton (htext : text ≠ "") (hbreaks : breaks text = 0) :
    lines text = [text] := by
  rw [lines_eq_pieces htext, pieces, List.splitOn_eq_singleton (breaks_eq_zero_iff.1 hbreaks),
    List.map_singleton, String.ofList_toList]

theorem intercalate_ne_empty (separator : String) (htext : text ≠ "") (rest : List String) :
    separator.intercalate (text :: rest) ≠ "" := by
  cases rest with
  | nil => rwa [String.intercalate_singleton]
  | cons next rest => simp [String.intercalate_cons_cons, htext]

/-- The lines of texts that are joined by line feeds are those of the texts, in their order. -/
theorem lines_intercalate (htexts : ∀ text ∈ texts, text ≠ "") :
    lines ("\n".intercalate texts) = texts.flatMap lines := by
  cases texts with
  | nil => rfl
  | cons text rest =>
      have htext := htexts text List.mem_cons_self
      rw [lines_eq_pieces (intercalate_ne_empty _ htext rest), pieces_intercalate]
      exact List.flatMap_congr fun other hother => (lines_eq_pieces (htexts other hother)).symm

end Lines

/-! ### Numbers and quoted texts -/

theorem line_feed_not_mem_toDigits {base : Nat} (hbase : 1 < base) (hsmall : base ≤ 16) (n : Nat) :
    '\n' ∉ Nat.toDigits base n := by
  intro hmem
  obtain ⟨digit, hdigit, hfeed⟩ := exists_digit_of_mem hbase hmem
  have hdigits : ∀ digit < 16, '\n' ≠ digit.digitChar := by decide
  exact hdigits digit (by omega) hfeed

@[simp] theorem breaks_toString_nat (n : Nat) : breaks (toString n) = 0 := by
  rw [breaks_eq_zero_iff, Nat.toString_eq_repr, Nat.toList_repr]
  exact line_feed_not_mem_toDigits (by decide) (by decide) n

@[simp] theorem breaks_toString_int (n : Int) : breaks (toString n) = 0 := by
  cases n with
  | ofNat n => exact breaks_toString_nat n
  | negSucc n =>
      change breaks ("-" ++ toString (n + 1)) = 0
      rw [breaks_append, breaks_toString_nat]
      rfl

theorem line_feed_not_mem_quoteChar (hidden : Char → Bool) (c : Char) :
    '\n' ∉ quoteChar hidden c := by
  have hdigits : '\n' ∉ Nat.toDigits 16 c.toNat :=
    line_feed_not_mem_toDigits (by decide) (by decide) c.toNat
  unfold quoteChar
  split_ifs with hquote hbackslash hfeed htab hreturn hnull hhidden
  iterate 6 decide
  · simp [numbered, hdigits]
  · simpa using Ne.symm hfeed

/-- Whatever stands between quotes stands on one line. -/
@[simp] theorem breaks_quote (hidden : Char → Bool) (text : String) :
    breaks (quote hidden text) = 0 := by
  rw [breaks_eq_zero_iff, toList_quote]
  simp [line_feed_not_mem_quoteChar]

end Text

/-! ### JSON values -/

namespace Json

open Text

namespace Number

/-- Digits of a number hold no line feed, in whichever parts they are written. -/
theorem breaks_of_subset_toDigits {part : List Char} {n : Nat} (h : part ⊆ Nat.toDigits 10 n) :
    breaks (String.ofList part) = 0 :=
  breaks_ofList fun hmem => line_feed_not_mem_toDigits (by decide) (by decide) n (h hmem)

@[simp] theorem breaks_digitText (n : Nat) : breaks (digitText n) = 0 :=
  breaks_of_subset_toDigits (List.Subset.refl _)

@[simp] theorem breaks_take_toDigits (count n : Nat) :
    breaks (String.ofList ((Nat.toDigits 10 n).take count)) = 0 :=
  breaks_of_subset_toDigits (List.take_subset count _)

@[simp] theorem breaks_drop_toDigits (count n : Nat) :
    breaks (String.ofList ((Nat.toDigits 10 n).drop count)) = 0 :=
  breaks_of_subset_toDigits (List.drop_subset count _)

@[simp] theorem breaks_zeros (n : Nat) : breaks (zeros n) = 0 := breaks_ofList (by simp)

@[simp] theorem breaks_positional (d : Decimal) : breaks (positional d) = 0 := by
  unfold positional
  dsimp only
  split_ifs <;> simp [breaks_eq_zero]

@[simp] theorem breaks_scientific (d : Decimal) : breaks (scientific d) = 0 := by
  unfold scientific
  dsimp only
  split_ifs <;>
    simp only [breaks_append, breaks_take_toDigits, breaks_drop_toDigits, breaks_digitText] <;>
    rfl

@[simp] theorem breaks_text (x : Binary64) : breaks (Number.text x) = 0 := by
  unfold Number.text
  dsimp only
  split_ifs <;> simp [breaks_eq_zero]

end Number

theorem breaks_unitText (n : Nat) : breaks (unitText n) = 0 := by
  have hdigits : '\n' ∉ Nat.toDigits 16 n := line_feed_not_mem_toDigits (by decide) (by decide) n
  exact breaks_ofList (by simp [hdigits])

theorem breaks_escapeChar (c : Char) : breaks (escapeChar c) = 0 := by
  unfold escapeChar
  split_ifs with hquote hbackslash hfeed hreturn htab hback hform hcontrol
  iterate 7 rfl
  · rw [breaks_append, breaks_unitText]
    rfl
  · exact breaks_ofList (by simpa using Ne.symm hfeed)

/-- The text of a JSON string shows a line feed by an escape. -/
@[simp] theorem breaks_stringText (s : String) : breaks (stringText s) = 0 := by
  have hfold (chars : List Char) (front : String) :
      breaks (chars.foldl (fun text c => text ++ escapeChar c) front) = breaks front := by
    induction chars generalizing front with
    | nil => rfl
    | cons c rest ih => rw [List.foldl_cons, ih, breaks_append, breaks_escapeChar, Nat.add_zero]
  rw [stringText, breaks_append, hfold]
  rfl

theorem itemTexts_eq_map (items : List Json) : itemTexts items = items.map text := by
  induction items with
  | nil => rfl
  | cons item rest ih => rw [itemTexts, ih, List.map_cons]

theorem memberTexts_eq_map (members : Members Json) :
    memberTexts members = members.map fun pair => stringText pair.1 ++ ":" ++ pair.2.text := by
  induction members with
  | nil => rfl
  | cons pair rest ih => rw [memberTexts, ih, List.map_cons]

/-- The text of a JSON value without indentation stands on one line. -/
@[simp] theorem breaks_text (value : Json) : breaks value.text = 0 := by
  induction value using Json.induct with
  | step value ih =>
      cases value with
      | null => rfl
      | bool value => cases value <;> rfl
      | int value => rw [text, breaks_toString_int]
      | float value => rw [text, Number.breaks_text]
      | string value => rw [text, breaks_stringText]
      | array items =>
          have hitems : totalBreaks (itemTexts items) = 0 := by
            rw [totalBreaks_eq_zero_iff, itemTexts_eq_map, List.forall_mem_map]
            exact ih
          rw [text, breaks_append, breaks_append, breaks_intercalate rfl, hitems]
          rfl
      | object members =>
          have hmembers : totalBreaks (memberTexts members) = 0 := by
            rw [totalBreaks_eq_zero_iff, memberTexts_eq_map, List.forall_mem_map]
            intro pair hpair
            rw [breaks_append, breaks_append, breaks_stringText,
              ih pair.2 (List.mem_map_of_mem hpair)]
            rfl
          rw [text, breaks_append, breaks_append, breaks_intercalate rfl, hmembers]
          rfl

end Json

end ResourceTypes
