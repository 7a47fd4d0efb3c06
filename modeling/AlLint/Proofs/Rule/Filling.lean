import AlLint.Proofs.Checked
import AlLint.Rule.Message

/-!
# Filling the places of a message

There is one way to cut a template into plain characters and places if a place has all the digits behind its
percent sign (`IsCut`). The places of this cut are filled side by side, so nothing that comes from a value is
cut again.
-/

namespace AlLint.Message

open List

def EndsPlace (cs : List Char) : Prop := ∀ c ∈ cs.head?, Text.isDecimal c = false

/-- The parts that some characters are cut into. -/
inductive IsCut : List Part → List Char → Prop where
  | nil : IsCut [] []
  | plain {c : Char} {parts : List Part} {cs : List Char} : (c = '%' → EndsPlace cs) → IsCut parts cs →
      IsCut (.plain c :: parts) (c :: cs)
  | place {digits : List Char} {parts : List Part} {cs : List Char} : digits ≠ [] →
      (∀ d ∈ digits, Text.isDecimal d = true) →
      EndsPlace cs → IsCut parts cs → IsCut (.place digits :: parts) ('%' :: (digits ++ cs))

theorem endsPlace_iff {cs : List Char} : EndsPlace cs ↔ cs.takeWhile Text.isDecimal = [] := by
  cases cs <;> simp [EndsPlace, takeWhile_cons]

theorem isCut_cut (cs : List Char) : IsCut (cut cs) cs := by
  fun_induction cut cs with
  | case1 => exact .nil
  | case2 c cs digits hplace ih =>
    obtain ⟨rfl, hdigits⟩ := hplace
    have hends : EndsPlace (cs.dropWhile Text.isDecimal) := by
      intro d hd
      have hnot := head?_dropWhile_not Text.isDecimal cs
      rwa [Option.mem_def.1 hd] at hnot
    have hcut := IsCut.place hdigits (all_eq_true.1 all_takeWhile) hends ih
    rwa [takeWhile_append_dropWhile] at hcut
  | case3 c cs digits hplain ih =>
    refine .plain (fun hc => endsPlace_iff.2 ?_) ih
    exact not_not.1 fun hdigits => hplain ⟨hc, hdigits⟩

theorem IsCut.eq_cut {parts : List Part} {cs : List Char} (h : IsCut parts cs) : parts = cut cs := by
  induction h with
  | nil => rw [cut]
  | plain hpercent _ ih =>
    rw [cut, if_neg fun hplace => hplace.2 (endsPlace_iff.1 (hpercent hplace.1)), ih]
  | @place digits parts cs hne hdigits hends _ ih =>
    have hrun : (digits ++ cs).takeWhile Text.isDecimal = digits := by
      rw [takeWhile_append_of_pos hdigits, endsPlace_iff.1 hends, append_nil]
    have hrest : (digits ++ cs).dropWhile Text.isDecimal = cs :=
      append_cancel_left (hrun ▸ takeWhile_append_dropWhile)
    rw [cut, hrun, hrest, if_pos ⟨rfl, hne⟩, ih]

/-- The value with a number, counted from one. -/
def value? (args : List Document) (n : Nat) : Option Document :=
  if h : 1 ≤ n ∧ n ≤ args.length then some (args.get ⟨n - 1, by omega⟩) else none

/-- A part with its place filled, if there is a value with its number. -/
def Part.filled (args : List Document) : Part → List Char
  | .plain c => [c]
  | .place digits => ((value? args (Text.decimalNumber digits)).map fun arg => arg.shown.toList).getD ('%' :: digits)

theorem value?_succ (args : List Document) (i : Nat) : value? args (i + 1) = args[i]? := by
  by_cases hi : i < args.length
  · rw [value?, dif_pos (by omega), getElem?_eq_getElem hi]
    rfl
  · rw [value?, dif_neg (by omega), getElem?_eq_none (by omega)]

/-- The value for a part, if it is a place that has one. -/
def Part.value? (args : List Document) : Part → Option Document
  | .plain _ => none
  | .place digits => Message.value? args (Text.decimalNumber digits)

variable {part : Part} {parts : List Part} (args : List Document)

/-- A part is filled if the value for it can be written, and not at all otherwise. -/
theorem Part.fill_eq (h : ∀ digits, part = .place digits → digits.length ≤ maxDigits) :
    part.fill args = if ∀ arg ∈ part.value? args, arg.isWritable = true then
      .ok (part.filled args) else .error .value := by
  cases part with
  | plain c => simp [fill, filled, value?]
  | place digits =>
    rw [fill, numeral, if_pos (h digits rfl), Except.mapError, bind_of_ok rfl, filled, value?]
    cases Text.decimalNumber digits with
    | zero => simp [Message.value?]
    | succ i =>
      rw [value?_succ]
      cases harg : args[i]? with
      | none => simp [harg]
      | some arg => cases hw : arg.isWritable <;> simp [harg, Document.shownOr, hw, Except.map]

theorem mapM_fill_eq (h : ∀ digits, .place digits ∈ parts → digits.length ≤ maxDigits) :
    parts.mapM (Part.fill args) =
      if ∀ part ∈ parts, ∀ arg ∈ part.value? args, arg.isWritable = true then .ok (parts.map (Part.filled args))
      else .error .value := by
  induction parts with
  | nil => rfl
  | cons part parts ih =>
    have hpart := Part.fill_eq args fun digits hplace => h digits (hplace ▸ mem_cons_self)
    rw [mapM_cons, hpart, ih fun digits hplace => h digits (mem_cons_of_mem _ hplace)]
    simp only [forall_mem_cons]
    by_cases hfirst : ∀ arg ∈ part.value? args, arg.isWritable = true
    · by_cases hrest : ∀ part ∈ parts, ∀ arg ∈ part.value? args, arg.isWritable = true
      · rw [if_pos hfirst, if_pos hrest, if_pos ⟨hfirst, hrest⟩]
        rfl
      · rw [if_pos hfirst, if_neg hrest, if_neg (not_and_of_not_right _ hrest)]
        rfl
    · rw [if_neg hfirst, if_neg (not_and_of_not_left _ hfirst)]
      rfl

/-- **All places are filled at once.** A template is cut in exactly one way into plain characters and percent
signs with all the digits behind them. If no place has too many digits to be a number, the message is made of
these parts in order: plain characters as they are, for each place the text of the value with its number, and
the place itself if there is no such value. There is a message unless a value that is asked for has no text,
because a number in it is too long to be written. -/
theorem render_fills_at_once (template : String) (args : List Document) :
    ∃ parts, IsCut parts template.toList ∧ (∀ parts', IsCut parts' template.toList → parts' = parts) ∧
      ((∀ digits, .place digits ∈ parts → digits.length ≤ maxDigits) →
        render template args =
          if ∀ part ∈ parts, ∀ arg ∈ part.value? args, arg.isWritable = true then
            .ok (String.ofList (parts.flatMap (Part.filled args)))
          else .error .value) := by
  refine ⟨cut template.toList, isCut_cut _, fun parts' h => h.eq_cut, fun hdigits => ?_⟩
  rw [render, mapM_fill_eq args hdigits, flatMap_def]
  split <;> rfl

/-- The text of the first value is not looked at again, and `%10` is the place of a tenth value. -/
example : render "%1%%2 %10" [.text "%2", .text "b"] = .ok "%2%b %10" := by decide +kernel

end AlLint.Message
