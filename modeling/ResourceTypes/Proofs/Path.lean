import ResourceTypes.Path
import ResourceTypes.Proofs.Text.Quoted

/-!
Displayed paths. How a step is shown tells where it ends, so the steps are told
from what is shown; only the root is shown as one member of the document could be.
-/

namespace ResourceTypes

namespace Path

open Text

variable {hidden : Char → Bool} {first : Bool} {step other : Step} {name : String}
  {xs ys : List Char}

/-- What may stand behind a step: nothing, or a mark that a further step begins with. -/
def Breaks (rest : List Char) : Prop := ∀ c rest', rest = c :: rest' → c = '.' ∨ c = '['

/-- Whether a step is shown between brackets. -/
def bracketed : Step → Bool
  | .index _ => true
  | .key name => needsQuotes name

/-- What stands between the brackets of a step. -/
def inside (hidden : Char → Bool) : Step → List Char
  | .index position => Nat.toDigits 10 position
  | .key name => (quote hidden name).toList

/-! ### Single steps as they are shown -/

theorem plain_iff : needsQuotes name = false ↔
    name.toList ≠ [] ∧ ∀ c ∈ name.toList, c ≠ '.' ∧ c ≠ '[' ∧ c ≠ ']' ∧ c ≠ '"' := by
  simp [needsQuotes, and_assoc]

theorem toList_bracketed (h : bracketed step = true) :
    (showStep hidden first step).toList = '[' :: (inside hidden step ++ [']']) := by
  cases step with
  | index position =>
      show ("[" ++ position.repr ++ "]").toList = _
      simp [inside, Nat.toList_repr]
  | key name =>
      have hquotes : needsQuotes name = true := h
      simp [showStep, inside, hquotes]

theorem toList_plain (h : needsQuotes name = false) :
    (showStep hidden first (.key name)).toList = (if first then [] else ['.']) ++ name.toList := by
  cases first <;> simp [showStep, h]

/-- A step that needs no brackets does not begin with one. -/
theorem head_plain_ne (h : needsQuotes name = false) :
    (showStep hidden first (.key name)).toList ++ xs ≠ '[' :: ys := by
  obtain ⟨hne, hchars⟩ := plain_iff.1 h
  obtain ⟨c, chars, hname⟩ := List.exists_cons_of_ne_nil hne
  have hc : c ≠ '[' := (hchars c (hname ▸ List.mem_cons_self)).2.1
  rw [toList_plain h, hname]
  intro heq
  cases first with
  | true => exact hc (List.cons.inj heq).1
  | false => exact absurd (List.cons.inj heq).1 (by decide)

/-- Behind the first step, a step begins with a mark. -/
theorem exists_mark (hidden : Char → Bool) (step : Step) :
    ∃ mark rest, (showStep hidden false step).toList = mark :: rest ∧
      (mark = '.' ∨ mark = '[') := by
  cases hstep : bracketed step with
  | true => exact ⟨'[', _, toList_bracketed hstep, .inr rfl⟩
  | false =>
      cases step with
      | index position => cases hstep
      | key name => exact ⟨'.', name.toList, toList_plain hstep, .inl rfl⟩

/-! ### Where steps end -/

/-- A number ends at the bracket, which is not among its digits. -/
theorem toDigits_append_inj {m n : Nat}
    (h : Nat.toDigits 10 m ++ ']' :: xs = Nat.toDigits 10 n ++ ']' :: ys) : m = n ∧ xs = ys := by
  have hdigits (n : Nat) : ∀ c ∈ Nat.toDigits 10 n, decide (c ≠ ']') = true := by
    intro c hmem
    rw [decide_eq_true_eq]
    rintro rfl
    exact not_mem_toDigits (by decide) (by decide) (by decide) hmem
  have hfront := congrArg (List.takeWhile (· ≠ ']')) h
  rw [List.takeWhile_append_of_pos (hdigits m), List.takeWhile_append_of_pos (hdigits n),
    List.takeWhile_cons_of_neg (by simp), List.takeWhile_cons_of_neg (by simp), List.append_nil,
    List.append_nil] at hfront
  rw [hfront] at h
  have hnumber := congrArg (number? 10) hfront
  rw [number?_toDigits (by decide) (by decide), number?_toDigits (by decide) (by decide)] at hnumber
  exact ⟨Option.some.inj hnumber, (List.cons.inj (List.append_cancel_left h)).2⟩

/-- A number is not taken for a quoted name, since no digit is a quote. -/
theorem toDigits_append_ne (n : Nat) : Nat.toDigits 10 n ++ xs ≠ '"' :: ys := by
  obtain ⟨c, digits, hdigits⟩ := List.exists_cons_of_ne_nil (@Nat.toDigits_ne_nil n 10)
  have hc : '"' ≠ c := by
    rintro rfl
    have hmem : '"' ∈ Nat.toDigits 10 n := hdigits ▸ List.mem_cons_self
    exact not_mem_toDigits (by decide) (by decide) (by decide) hmem
  rw [hdigits]
  intro h
  exact hc (List.cons.inj h).1.symm

/-- What stands between brackets tells the step, and where the brackets are closed. -/
theorem inside_append_inj
    (h : inside hidden step ++ ']' :: xs = inside hidden other ++ ']' :: ys) :
    step = other ∧ xs = ys := by
  cases step with
  | index m =>
      cases other with
      | index n =>
          obtain ⟨rfl, hend⟩ := toDigits_append_inj h
          exact ⟨rfl, hend⟩
      | key name =>
          simp only [inside, toList_quote] at h
          exact absurd h (toDigits_append_ne m)
  | key name =>
      cases other with
      | index n =>
          simp only [inside, toList_quote] at h
          exact absurd h.symm (toDigits_append_ne n)
      | key name' =>
          obtain ⟨rfl, hend⟩ := quote_append_inj h
          exact ⟨rfl, (List.cons.inj hend).2⟩

/-- A name without brackets ends where a mark stands, since it holds none itself. -/
theorem takeWhile_plain (h : needsQuotes name = false) (hxs : Breaks xs) :
    (name.toList ++ xs).takeWhile (fun c => c ≠ '.' ∧ c ≠ '[') = name.toList := by
  obtain ⟨-, hchars⟩ := plain_iff.1 h
  rw [List.takeWhile_append_of_pos fun c hc => by simpa using ⟨(hchars c hc).1, (hchars c hc).2.1⟩]
  cases xs with
  | nil => simp
  | cons c rest =>
      rw [List.takeWhile_cons_of_neg, List.append_nil]
      rcases hxs c rest rfl with rfl | rfl <;> simp

theorem plain_append_inj {name' : String} (h : needsQuotes name = false)
    (h' : needsQuotes name' = false) (hxs : Breaks xs) (hys : Breaks ys)
    (hsame : name.toList ++ xs = name'.toList ++ ys) : name = name' ∧ xs = ys := by
  have hname := congrArg (List.takeWhile fun c => c ≠ '.' ∧ c ≠ '[') hsame
  rw [takeWhile_plain h hxs, takeWhile_plain h' hys] at hname
  rw [hname] at hsame
  exact ⟨String.toList_inj.1 hname, List.append_cancel_left hsame⟩

/-- A step is told from how it is shown, and so is where it ends. -/
theorem showStep_append_inj (hxs : Breaks xs) (hys : Breaks ys)
    (h : (showStep hidden first step).toList ++ xs = (showStep hidden first other).toList ++ ys) :
    step = other ∧ xs = ys := by
  -- a step in brackets opens one, which no plain name starts with
  cases hstep : bracketed step with
  | true =>
      rw [toList_bracketed hstep] at h
      cases hother : bracketed other with
      | true =>
          rw [toList_bracketed hother] at h
          simp only [List.cons_append, List.append_assoc, List.cons.injEq, true_and,
            List.nil_append] at h
          exact inside_append_inj h
      | false =>
          cases other with
          | index n => cases hother
          | key name => exact absurd h.symm (head_plain_ne hother)
  | false =>
      cases step with
      | index n => cases hstep
      | key name =>
          cases hother : bracketed other with
          | true =>
              rw [toList_bracketed hother] at h
              exact absurd h (head_plain_ne hstep)
          | false =>
              cases other with
              | index n => cases hother
              | key name' =>
                  rw [toList_plain hstep, toList_plain hother, List.append_assoc,
                    List.append_assoc] at h
                  obtain ⟨rfl, hend⟩ :=
                    plain_append_inj hstep hother hxs hys (List.append_cancel_left h)
                  exact ⟨rfl, hend⟩

/-! ### Whole paths -/

/-- The steps behind the first one, as they are shown. -/
def showRest (hidden : Char → Bool) (path : Path) : List Char :=
  path.flatMap fun step => (showStep hidden false step).toList

theorem breaks_showRest (path : Path) : Breaks (showRest hidden path) := by
  cases path with
  | nil => exact nofun
  | cons step rest =>
      obtain ⟨mark, chars, hshow, hmark⟩ := exists_mark hidden step
      rw [showRest, List.flatMap_cons, hshow]
      intro c rest' h
      exact (List.cons.inj h).1 ▸ hmark

theorem showRest_cons_ne (step : Step) (rest : Path) : showRest hidden (step :: rest) ≠ [] := by
  obtain ⟨mark, chars, hshow, -⟩ := exists_mark hidden step
  rw [showRest, List.flatMap_cons, hshow]
  exact List.cons_ne_nil _ _

theorem showRest_injective : Function.Injective (showRest hidden) := by
  intro path other h
  induction path generalizing other with
  | nil =>
      cases other with
      | nil => rfl
      | cons step rest => exact absurd h.symm (showRest_cons_ne step rest)
  | cons step rest ih =>
      cases other with
      | nil => exact absurd h (showRest_cons_ne step rest)
      | cons step' rest' =>
          obtain ⟨rfl, hrest⟩ :=
            showStep_append_inj (breaks_showRest rest) (breaks_showRest rest') h
          rw [ih hrest]

theorem toList_displayWith (step : Step) (rest : Path) :
    (displayWith hidden (step :: rest)).toList =
      (showStep hidden true step).toList ++ showRest hidden rest := by
  rw [displayWith, String.toList_append, String.toList_join, List.flatMap_map, showRest]

/-- Below the root, paths are told from their displayed forms. -/
theorem displayWith_cons_inj {rest rest' : Path} :
    displayWith hidden (step :: rest) = displayWith hidden (other :: rest') ↔
      step = other ∧ rest = rest' := by
  constructor
  · intro h
    have hchars := congrArg String.toList h
    rw [toList_displayWith, toList_displayWith] at hchars
    obtain ⟨hstep, hrest⟩ :=
      showStep_append_inj (breaks_showRest rest) (breaks_showRest rest') hchars
    exact ⟨hstep, showRest_injective hrest⟩
  · rintro ⟨rfl, rfl⟩
    rfl

/-- The root is shown as a member of that name would be. -/
theorem displayWith_root : displayWith hidden .root = displayWith hidden [.key "(root)"] := by
  have hplain : needsQuotes "(root)" = false := by decide
  rw [← String.toList_inj, toList_displayWith, toList_plain hplain]
  simp [displayWith, Path.root, showRest]

theorem displayWith_eq_root_iff {rest : Path} :
    displayWith hidden (step :: rest) = displayWith hidden .root ↔
      step = .key "(root)" ∧ rest = [] := by
  rw [displayWith_root, displayWith_cons_inj]

/-- Paths that are shown alike are the same, but for the root and its namesake. -/
theorem displayWith_inj_iff {path other : Path} :
    path.displayWith hidden = other.displayWith hidden ↔
      path = other ∨ (path = .root ∧ other = [.key "(root)"]) ∨
        (path = [.key "(root)"] ∧ other = .root) := by
  cases path with
  | nil =>
      cases other with
      | nil => simp
      | cons step rest =>
          rw [eq_comm, ← Path.root, displayWith_eq_root_iff]
          simp [Path.root]
  | cons step rest =>
      cases other with
      | nil =>
          rw [← Path.root, displayWith_eq_root_iff]
          simp [Path.root]
      | cons step' rest' =>
          rw [displayWith_cons_inj]
          simp [Path.root]

end Path

end ResourceTypes
