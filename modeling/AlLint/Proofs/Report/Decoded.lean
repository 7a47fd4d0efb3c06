import AlLint.Report.Json

/-!
# Reports are lossless

A reader of JSON that knows nothing of how reports are laid out: it cuts a text into tokens, one character at a
time, and builds a value out of these. Of JSON it leaves out the literals and numbers with a fraction, which no
report has; it refuses them. Main statement: it reads each report, which is pure ASCII, as the records of its
diagnostics.
-/

namespace AlLint.Report

open List

inductive Json where
  | text (s : String)
  | number (n : Int)
  | array (items : List Json)
  | object (members : List (String × Json))

namespace Json

inductive Symbol where
  | mark (c : Char)
  | text (s : String)
  | number (n : Int)

/-- Where the reader is. In a string, `high` is a first surrogate that waits for its second. -/
inductive Mode where
  | between
  | minus
  | number (negative : Bool) (n : Nat)
  | text (done : List Char) (high : Option Nat)
  | escape (done : List Char) (high : Option Nat)
  | hex (done : List Char) (high : Option Nat) (more n : Nat)

structure Reader where
  out : List Symbol
  mode : Mode

namespace Reader

def between (out : List Symbol) (c : Char) : Option Reader :=
  if c ∈ [' ', '\n', '\r', '\t'] then some ⟨out, .between⟩
  else if c ∈ ['[', ']', '\x7b', '\x7d', ',', ':'] then some ⟨out ++ [.mark c], .between⟩
  else if c = '"' then some ⟨out, .text [] none⟩
  else if c = '-' then some ⟨out, .minus⟩
  else if c.isDigit then some ⟨out, .number false (c.toNat - 48)⟩
  else none

/-- Puts a number that may have ended among the tokens. -/
def flush (st : Reader) : Reader :=
  match st.mode with
  | .number negative n => ⟨st.out ++ [.number (if negative then -n else n)], .between⟩
  | _ => st

/-- The string behind one more escaped code unit. Surrogates stand in pairs only. -/
def unit (done : List Char) (high : Option Nat) (n : Nat) : Option Mode :=
  let isLow := 0xDC00 ≤ n ∧ n < 0xE000
  match high with
  | some h =>
    if isLow then some (.text (done ++ [Char.ofNat (0x10000 + (h - 0xD800) * 0x400 + (n - 0xDC00))]) none)
    else none
  | none =>
    if isLow then none
    else if 0xD800 ≤ n ∧ n < 0xDC00 then some (.text done (some n))
    else some (.text (done ++ [Char.ofNat n]) none)

def escapes : List (Char × Char) :=
  [('"', '"'), ('\\', '\\'), ('/', '/'), ('n', '\n'), ('r', '\r'), ('t', '\t'), ('b', '\x08'), ('f', '\x0c')]

def nibble? (c : Char) : Option Nat := "0123456789abcdef".toList.idxOf? c.toLower

def step (st : Reader) (c : Char) : Option Reader :=
  match st.mode with
  | .between => between st.out c
  | .minus => if c.isDigit then some ⟨st.out, .number true (c.toNat - 48)⟩ else none
  | .number negative n =>
    if c.isDigit then
      -- No further digit follows a zero in front.
      if n = 0 then none else some ⟨st.out, .number negative (10 * n + (c.toNat - 48))⟩
    else between st.flush.out c
  | .text done high =>
    if c = '\\' then some ⟨st.out, .escape done high⟩
    else if high.isSome then none
    else if c = '"' then some ⟨st.out ++ [.text (String.ofList done)], .between⟩
    else if c.toNat < 32 then none
    else some ⟨st.out, .text (done ++ [c]) none⟩
  | .escape done high =>
    if c = 'u' then some ⟨st.out, .hex done high 3 0⟩
    else if high.isSome then none
    else (escapes.lookup c).map fun d => ⟨st.out, .text (done ++ [d]) none⟩
  | .hex done high more n =>
    (nibble? c).bind fun d =>
      match more with
      | 0 => (unit done high (16 * n + d)).map (⟨st.out, ·⟩)
      | more + 1 => some ⟨st.out, .hex done high more (16 * n + d)⟩

def run (st : Reader) (cs : List Char) : Option Reader := cs.foldlM step st

end Reader

mutual

/-- The value in front of the tokens, and what follows it. -/
def value : Nat → List Symbol → Option (Json × List Symbol)
  | 0, _ => none
  | fuel + 1, ts =>
    match ts with
    | .text s :: ts => some (.text s, ts)
    | .number n :: ts => some (.number n, ts)
    | .mark '[' :: .mark ']' :: ts => some (.array [], ts)
    | .mark '[' :: ts => (items fuel ts).map fun r => (.array r.1, r.2)
    | .mark '\x7b' :: .mark '\x7d' :: ts => some (.object [], ts)
    | .mark '\x7b' :: ts => (members fuel ts).map fun r => (.object r.1, r.2)
    | _ => none

def items : Nat → List Symbol → Option (List Json × List Symbol)
  | 0, _ => none
  | fuel + 1, ts => (value fuel ts).bind fun r =>
    match r.2 with
    | .mark ',' :: ts => (items fuel ts).map fun rs => (r.1 :: rs.1, rs.2)
    | .mark ']' :: ts => some ([r.1], ts)
    | _ => none

def members : Nat → List Symbol → Option (List (String × Json) × List Symbol)
  | fuel + 1, .text name :: .mark ':' :: ts => (value fuel ts).bind fun r =>
    match r.2 with
    | .mark ',' :: ts => (members fuel ts).map fun rs => ((name, r.1) :: rs.1, rs.2)
    | .mark '\x7d' :: ts => some ([(name, r.1)], ts)
    | _ => none
  | _, _ => none

end

/-- The value that is written, if the text is one value and nothing else. -/
def decode (s : String) : Option Json :=
  (Reader.run ⟨[], .between⟩ s.toList).bind fun st =>
    match st.flush with
    | ⟨ts, .between⟩ =>
      match value ts.length ts with
      | some (v, []) => some v
      | _ => none
    | _ => none

end Json

/-- What the record of a diagnostic says. -/
def record (d : Diagnostic) : Json :=
  .object [
    ("rule_id", .text d.ruleId), ("severity", .text d.severity), ("category", .text d.category),
    ("message", .text d.message),
    ("location", .object [("file", .text d.path), ("line", .number d.line), ("column", .number d.column)]),
    ("tool", .text toolName), ("version", .text toolVersion)]

open Json

variable {d n : Nat} {s : String} {ts : List Symbol}

/-! ## Strings -/

theorem hex_eq (h : n < 0x10000) : Text.hex 4 n =
    [(n / 16 / 16 / 16 % 16).digitChar, (n / 16 / 16 % 16).digitChar, (n / 16 % 16).digitChar,
      (n % 16).digitChar] := by
  have hsplit (m : Nat) : Nat.toDigits 16 m =
      if m < 16 then [(m % 16).digitChar] else Nat.toDigits 16 (m / 16) ++ [(m % 16).digitChar] := by
    split
    case isTrue hm => rw [Nat.toDigits_of_lt_base hm, Nat.mod_eq_of_lt hm]
    case isFalse hm => exact Nat.toDigits_of_base_le (by decide) (by omega)
  have hz : Nat.digitChar 0 = '0' := rfl
  rw [Text.hex, hsplit n, hsplit (n / 16), hsplit (n / 16 / 16), hsplit (n / 16 / 16 / 16)]
  by_cases h₁ : n < 16
  · simp [h₁, hz, show n / 16 = 0 by omega, List.replicate]
  by_cases h₂ : n / 16 < 16
  · simp [h₁, h₂, hz, show n / 16 / 16 = 0 by omega, List.replicate]
  by_cases h₃ : n / 16 / 16 < 16
  · simp [h₁, h₂, h₃, hz, show n / 16 / 16 / 16 = 0 by omega]
  · simp [h₁, h₂, h₃, show n / 16 / 16 / 16 < 16 by omega]

theorem nibble?_digitChar (h : d < 16) : Reader.nibble? d.digitChar = some d := by decide +revert

theorem digitChar_ascii (h : d < 16) : d.digitChar.toNat < 128 := by decide +revert

theorem run_unitEscape (out : List Symbol) (done : List Char) (high : Option Nat) (h : n < 0x10000) :
    Reader.run ⟨out, .text done high⟩ (unitEscape n) = (Reader.unit done high n).map (⟨out, ·⟩) := by
  have hd (m : Nat) := nibble?_digitChar (Nat.mod_lt m (by decide : 0 < 16))
  have hn : 16 * (16 * (16 * (n / 16 / 16 / 16 % 16) + n / 16 / 16 % 16) + n / 16 % 16) + n % 16 = n := by omega
  simp [Reader.run, unitEscape, hex_eq h, Reader.step, hd, hn]

theorem run_append (st : Reader) (cs ds : List Char) : st.run (cs ++ ds) = (st.run cs).bind (·.run ds) :=
  foldlM_append

theorem ascii_of_all {cs : List Char} (h : (cs.all fun c => c.toNat < 128) = true) : ∀ c ∈ cs, c.toNat < 128 :=
  fun c hc => of_decide_eq_true (all_eq_true.1 h c hc)

theorem unitEscape_ascii (h : n < 0x10000) : ∀ x ∈ unitEscape n, x.toNat < 128 := by
  have hd (m : Nat) := digitChar_ascii (Nat.mod_lt m (by decide : 0 < 16))
  simp [unitEscape, hex_eq h, hd]

/-- What a character is written as is pure ASCII, and within a string it is read as the character. -/
theorem escape_reads (c : Char) : (∀ x ∈ escape c, x.toNat < 128) ∧
    ∀ out done, Reader.run ⟨out, .text done none⟩ (escape c) = some ⟨out, .text (done ++ [c]) none⟩ := by
  have hc : c.toNat < 0xD800 ∨ 0xDFFF < c.toNat ∧ c.toNat < 0x110000 := c.valid
  by_cases hs : c ∈ ['"', '\\', '\n', '\r', '\t', '\x08', '\x0c']
  · simp only [mem_cons, not_mem_nil, or_false] at hs
    rcases hs with rfl | rfl | rfl | rfl | rfl | rfl | rfl <;> exact ⟨ascii_of_all rfl, fun _ _ => rfl⟩
  simp only [mem_cons, not_mem_nil, or_false, not_or] at hs
  obtain ⟨h₁, h₂, h₃, h₄, h₅, h₆, h₇⟩ := hs
  simp only [escape, h₁, h₂, h₃, h₄, h₅, h₆, h₇, if_false]
  by_cases hplain : 32 ≤ c.toNat ∧ c.toNat ≤ 126
  · rw [if_pos hplain]
    refine ⟨by simp; omega, fun out done => ?_⟩
    simp [Reader.run, Reader.step, h₁, h₂, show ¬c.toNat < 32 by omega]
  rw [if_neg hplain]
  by_cases hbasic : c.toNat < 0x10000
  · rw [if_pos hbasic]
    refine ⟨unitEscape_ascii hbasic, fun out done => ?_⟩
    simp [run_unitEscape _ _ _ hbasic, Reader.unit, show ¬(0xDC00 ≤ c.toNat ∧ c.toNat < 0xE000) by omega,
      show ¬(0xD800 ≤ c.toNat ∧ c.toNat < 0xDC00) by omega]
  · rw [if_neg hbasic]
    -- The two surrogates, and the character that they stand for.
    generalize hh : 0xD800 + (c.toNat - 0x10000) / 0x400 = h
    generalize hl : 0xDC00 + (c.toNat - 0x10000) % 0x400 = l
    have hpair : 0x10000 + (h - 0xD800) * 0x400 + (l - 0xDC00) = c.toNat := by omega
    refine ⟨?_, fun out done => ?_⟩
    · simpa [or_imp, forall_and] using ⟨unitEscape_ascii (by omega : h < 0x10000),
        unitEscape_ascii (by omega : l < 0x10000)⟩
    · have hhigh : Reader.unit done none h = some (.text done (some h)) := by
        rw [Reader.unit, if_neg (by omega), if_pos (by omega)]
      have hlow : Reader.unit done (some h) l = some (.text (done ++ [Char.ofNat c.toNat]) none) := by
        rw [Reader.unit, if_pos (by omega), hpair]
      rw [run_append, run_unitEscape _ _ _ (by omega : h < 0x10000), hhigh, Option.map_some, Option.bind_some,
        run_unitEscape _ _ _ (by omega : l < 0x10000), hlow, Option.map_some, Char.ofNat_toNat]

theorem run_escapes (out : List Symbol) (done cs : List Char) :
    Reader.run ⟨out, .text done none⟩ (cs.flatMap escape) = some ⟨out, .text (done ++ cs) none⟩ := by
  induction cs generalizing done with
  | nil => simp [Reader.run]
  | cons c cs ih => rw [flatMap_cons, run_append, (escape_reads c).2, Option.bind_some, ih, append_assoc]; rfl

/-! ## Pieces of a report -/

/-- The text is pure ASCII, is read as these tokens, and does not go on with a number that stands in front of it. -/
structure Spells (s : String) (ts : List Symbol) : Prop where
  ascii : ∀ c ∈ s.toList, c.toNat < 128
  apart : ∀ c, s.toList.head? = some c → c.isDigit = false
  scanned : ∀ out, (Reader.run ⟨out, .between⟩ s.toList).map Reader.flush = some ⟨out ++ ts, .between⟩

theorem spells_fixed (hascii : (s.toList.all fun c => c.toNat < 128) = true)
    (happart : (s.toList.head?.all fun c => !c.isDigit) = true)
    (h : ∀ out, (Reader.run ⟨out, .between⟩ s.toList).map Reader.flush = some ⟨out ++ ts, .between⟩) :
    Spells s ts := by
  refine ⟨ascii_of_all hascii, fun c hc => ?_, h⟩
  simpa [hc] using happart

theorem run_flush {st : Reader} {cs : List Char} (h : ∀ c, cs.head? = some c → c.isDigit = false) :
    (st.flush.run cs).map Reader.flush = (st.run cs).map Reader.flush := by
  obtain ⟨out, mode⟩ := st
  cases cs with
  | nil => cases mode <;> rfl
  | cons c cs =>
    have hstep : Reader.step (Reader.flush ⟨out, mode⟩) c = Reader.step ⟨out, mode⟩ c := by
      cases mode <;> simp [Reader.flush, Reader.step, h c rfl]
    simp [Reader.run, hstep]

theorem Spells.append {t : String} {us : List Symbol} (h : Spells s ts) (h' : Spells t us) :
    Spells (s ++ t) (ts ++ us) := by
  refine ⟨?_, fun c hc => ?_, fun out => ?_⟩
  · simpa [or_imp, forall_and] using ⟨h.ascii, h'.ascii⟩
  · rw [String.toList_append, head?_append, Option.or_eq_some_iff] at hc
    rcases hc with hc | ⟨-, hc⟩
    · exact h.apart c hc
    · exact h'.apart c hc
  · obtain ⟨st, hst, hflush⟩ := Option.map_eq_some_iff.1 (h.scanned out)
    rw [String.toList_append, run_append, hst, Option.bind_some, ← run_flush h'.apart, hflush, h'.scanned,
      append_assoc]

theorem spells_string (s : String) : Spells (string s) [.text s] := by
  refine ⟨?_, by simp [string], fun out => ?_⟩
  · intro c hc
    simp only [string, String.toList_ofList, mem_append, mem_cons, mem_flatMap, not_mem_nil,
      or_false] at hc
    rcases hc with (rfl | ⟨x, -, hx⟩) | rfl
    · decide
    · exact (escape_reads x).1 c hx
    · decide
  · have hopen : Reader.run ⟨out, .between⟩ ['"'] = some ⟨out, .text [] none⟩ := rfl
    rw [string, String.toList_ofList, cons_append, ← singleton_append, run_append, hopen,
      Option.bind_some, run_append, run_escapes]
    simp [Reader.run, Reader.step, Reader.flush]

theorem run_digits (out : List Symbol) (negative : Bool) (n : Nat) :
    Reader.run ⟨out, if negative then .minus else .between⟩ (Nat.toDigits 10 n) = some ⟨out, .number negative n⟩ := by
  induction n using Nat.strongRecOn with
  | _ n ih =>
    by_cases hn : n < 10
    · rw [Nat.toDigits_of_lt_base hn]
      have hd : n = 0 ∨ n = 1 ∨ n = 2 ∨ n = 3 ∨ n = 4 ∨ n = 5 ∨ n = 6 ∨ n = 7 ∨ n = 8 ∨ n = 9 := by omega
      cases negative <;> rcases hd with rfl | rfl | rfl | rfl | rfl | rfl | rfl | rfl | rfl | rfl <;> rfl
    · have hdigit : ∀ d < 10, d.digitChar.isDigit = true ∧ d.digitChar.toNat - 48 = d := by decide
      obtain ⟨h₁, h₂⟩ := hdigit (n % 10) (Nat.mod_lt _ (by decide))
      rw [Nat.toDigits_of_base_le (by decide) (by omega), run_append, ih (n / 10) (by omega)]
      simp [Reader.run, Reader.step, h₁, h₂, show n / 10 ≠ 0 by omega, show 10 * (n / 10) + n % 10 = n by omega]

theorem toDigits_ascii (n : Nat) : ∀ c ∈ Nat.toDigits 10 n, c.toNat < 128 := by
  intro c hc
  have hdigit := Nat.isDigit_of_mem_toDigits (by decide) (by decide) hc
  simp only [Char.isDigit, Bool.and_eq_true, decide_eq_true_eq, UInt32.le_iff_toNat_le] at hdigit
  exact Nat.lt_of_le_of_lt hdigit.2 (by decide)

/-- How an integer is written: its digits, behind a sign if it is negative. -/
theorem exists_digits (n : Int) : ∃ (negative : Bool) (m : Nat), n = (if negative then -(m : Int) else m) ∧
    (toString n).toList = (if negative then ['-'] else []) ++ Nat.toDigits 10 m := by
  cases n with
  | ofNat m => exact ⟨false, m, rfl, Nat.toList_repr⟩
  | negSucc m =>
    refine ⟨true, m + 1, rfl, ?_⟩
    show ("-" ++ (m + 1).repr).toList = _
    rw [String.toList_append, Nat.toList_repr]
    rfl

theorem spells_number (n : Int) : Spells (": " ++ toString n) [.mark ':', .number n] := by
  obtain ⟨negative, m, hn, hs⟩ := exists_digits n
  have hs : (": " ++ toString n).toList = (':' :: ' ' :: if negative then ['-'] else []) ++ Nat.toDigits 10 m := by
    rw [String.toList_append, hs]
    rfl
  have hsign (out : List Symbol) : Reader.run ⟨out, .between⟩ (':' :: ' ' :: if negative then ['-'] else []) =
      some ⟨out ++ [.mark ':'], if negative then .minus else .between⟩ := by
    cases negative <;> rfl
  refine ⟨?_, by rw [hs]; simp, fun out => ?_⟩
  · rw [hs]
    intro c hc
    rcases mem_append.1 hc with hc | hc
    · have hc : c ∈ [':', ' ', '-'] := by revert hc; cases negative <;> simp +contextual [or_imp]
      exact @ascii_of_all [':', ' ', '-'] rfl c hc
    · exact toDigits_ascii m c hc
  · rw [hs, run_append, hsign, Option.bind_some, run_digits, hn]
    simp [Reader.flush]

theorem spells_intercalate (ps : List (String × List Symbol)) (h : ∀ p ∈ ps, Spells p.1 p.2) :
    Spells (",\n".intercalate (ps.map Prod.fst)) ([.mark ','].intercalate (ps.map Prod.snd)) := by
  induction ps with
  | nil => exact ⟨by simp, by simp, fun out => by simp [Reader.run, Reader.flush]⟩
  | cons p ps ih =>
    have hp := h p mem_cons_self
    have hps := ih fun q hq => h q (mem_cons_of_mem _ hq)
    cases ps with
    | nil => simpa using hp
    | cons q ps =>
      have hcomma : Spells ",\n" [.mark ','] := spells_fixed rfl rfl fun _ => rfl
      simp only [map_cons, String.intercalate_cons_cons, intercalate_cons_cons]
      exact (hp.append hcomma).append hps

theorem spells_blank (h : s ∈ ["\n", "  ", "    "]) : Spells s [] := by
  simp only [mem_cons, not_mem_nil, or_false] at h
  rcases h with rfl | rfl | rfl <;>
    exact spells_fixed rfl rfl fun out => by rw [append_nil]; rfl

theorem spells_object (indent : String) (ms : List (Member × List Symbol)) (hindent : Spells indent [])
    (h : ∀ m ∈ ms, Spells (": " ++ m.1.2) (.mark ':' :: m.2)) :
    Spells (object indent (ms.map Prod.fst))
      (.mark '\x7b' :: [.mark ','].intercalate (ms.map fun m => .text m.1.1 :: .mark ':' :: m.2) ++
        [.mark '\x7d']) := by
  have hopen : Spells "\x7b\n" [.mark '\x7b'] := spells_fixed rfl rfl fun _ => rfl
  have hclose : Spells "\x7d" [.mark '\x7d'] := spells_fixed rfl rfl fun _ => rfl
  have hblank : Spells "  " [] := spells_blank (by simp)
  have hline (m) (hm : m ∈ ms) :
      Spells (indent ++ "  " ++ string m.1.1 ++ (": " ++ m.1.2)) (.text m.1.1 :: .mark ':' :: m.2)  :=
    ((hindent.append hblank).append (spells_string m.1.1)).append (h m hm)
  have hlines := spells_intercalate
    (ms.map fun m => (indent ++ "  " ++ string m.1.1 ++ (": " ++ m.1.2), .text m.1.1 :: .mark ':' :: m.2))
    (by rw [forall_mem_map]; exact hline)
  have hend : Spells "\n" [] := spells_blank (by simp)
  have hall := (((hopen.append hlines).append hend).append hindent).append hclose
  rw [map_map, map_map] at hall
  simp only [Function.comp_def, ← String.append_assoc] at hall
  simp only [object, map_map, Function.comp_def]
  simpa only [append_nil, cons_append, nil_append] using hall

theorem spells_value (h : Spells s ts) : Spells (": " ++ s) (.mark ':' :: ts) :=
  have hcolon : Spells ": " [.mark ':'] := spells_fixed rfl rfl fun _ => rfl
  hcolon.append h

theorem spells_diagnostic (d : Diagnostic) : ∃ ts, Spells (diagnostic d) ts ∧ ts.head? = some (.mark '\x7b') ∧
    20 < ts.length ∧ ∀ fuel rest, 20 < fuel → value fuel (ts ++ rest) = some (record d, rest) := by
  have hlocation := spells_object "    "
    [(("file", string d.path), [.text d.path]), (("line", toString d.line), [.number d.line]),
      (("column", toString d.column), [.number d.column])] (spells_blank (by simp))
    (by simpa using ⟨spells_value (spells_string _), spells_number _, spells_number _⟩)
  have hrecord := spells_object "  " [(("rule_id", string d.ruleId), [.text d.ruleId]),
      (("severity", string d.severity), [.text d.severity]), (("category", string d.category), [.text d.category]),
      (("message", string d.message), [.text d.message]), (("location", _), _),
      (("tool", string toolName), [.text toolName]), (("version", string toolVersion), [.text toolVersion])]
    (spells_blank (by simp)) (by simpa using ⟨spells_value (spells_string _), spells_value (spells_string _),
      spells_value (spells_string _), spells_value (spells_string _), spells_value hlocation,
        spells_value (spells_string _),
      spells_value (spells_string _)⟩)
  refine ⟨_, hrecord, rfl, by simp, fun fuel rest hfuel => ?_⟩
  obtain ⟨k, rfl⟩ : ∃ k, fuel = k + 21 := ⟨fuel - 21, by omega⟩
  simp [value, members, record]

/-- A list of diagnostics is read as its records, up to the end of the array. -/
theorem items_records {tokens : Diagnostic → List Symbol} (hlong : ∀ d, 20 < (tokens d).length)
    (hvalue : ∀ d fuel rest, 20 < fuel → value fuel (tokens d ++ rest) = some (record d, rest))
    (d : Diagnostic) (ds : List Diagnostic) (fuel : Nat)
    (hfuel : ([.mark ','].intercalate ((d :: ds).map tokens)).length < fuel) :
    items fuel ([.mark ','].intercalate ((d :: ds).map tokens) ++ [.mark ']']) = some ((d :: ds).map record, []) := by
  have hd := hlong d
  obtain ⟨fuel, rfl⟩ : ∃ k, fuel = k + 1 := ⟨fuel - 1, by omega⟩
  induction ds generalizing d fuel with
  | nil =>
    simp only [map_cons, map_nil, intercalate_singleton] at hfuel ⊢
    rw [items, hvalue d fuel _ (by omega)]
    rfl
  | cons e ds ih =>
    simp only [map_cons, intercalate_cons_cons, length_append, append_assoc] at hfuel ih ⊢
    have he := hlong e
    obtain ⟨fuel, rfl⟩ : ∃ k, fuel = k + 1 := ⟨fuel - 1, by omega⟩
    rw [items, hvalue d _ _ (by omega)]
    simp [ih e he fuel (by omega)]

theorem decode_of_spells {v : Json} (h : Spells s ts)
    (hv : value ts.length ts = some (v, [])) : decode s = some v := by
  obtain ⟨st, hst, hflush⟩ := Option.map_eq_some_iff.1 (h.scanned [])
  simp [decode, hst, hflush, hv]

theorem value_array (h : ts.head? = some (.mark '\x7b')) (fuel : Nat) :
    value (fuel + 1) (.mark '[' :: ts) = (items fuel ts).map fun r => (.array r.1, r.2) := by
  obtain ⟨ts, rfl⟩ := head?_eq_some_iff.1 h
  simp [value]

theorem json_decodes (ds : List Diagnostic) :
    (∀ c ∈ (json ds).toList, c.toNat < 128) ∧ decode (json ds) = some (.array (ds.map record)) := by
  obtain ⟨tokens, htokens⟩ := Classical.skolem.1 spells_diagnostic
  cases ds with
  | nil => exact ⟨ascii_of_all rfl, rfl⟩
  | cons d ds =>
    have hblank : Spells "  " [] := spells_blank (by simp)
    have hopen : Spells "[\n" [.mark '['] := spells_fixed rfl rfl fun _ => rfl
    have hclose : Spells "\n]\n" [.mark ']'] := spells_fixed rfl rfl fun _ => rfl
    have hlines := spells_intercalate ((d :: ds).map fun d => ("  " ++ diagnostic d, tokens d))
      (by rw [forall_mem_map]; exact fun d _ => hblank.append (htokens d).1)
    rw [map_map, map_map] at hlines
    have hall : Spells (json (d :: ds)) (.mark '[' ::
      ([.mark ','].intercalate ((d :: ds).map tokens) ++ [.mark ']'])) := (hopen.append hlines).append hclose
    refine ⟨hall.ascii, decode_of_spells hall ?_⟩
    have hhead : ([Symbol.mark ','].intercalate ((d :: ds).map tokens) ++ [Symbol.mark ']']).head? =
      some (.mark '\x7b') := by
      cases ds <;> simp [intercalate_cons_cons, (htokens d).2.1]
    rw [length_cons, value_array hhead,
      items_records (fun d => (htokens d).2.2.1) (fun d => (htokens d).2.2.2) d ds _ (by simp)]
    rfl

/-- A report is pure ASCII, and it is read as the records of its diagnostics, one for each, in their order. So
no two lists of diagnostics have one report. -/
theorem json_lossless : Function.Injective json ∧
    ∀ ds, (∀ c ∈ (json ds).toList, c.toNat < 128) ∧ decode (json ds) = some (.array (ds.map record)) := by
  refine ⟨fun ds es h => ?_, json_decodes⟩
  have hrecords : ds.map record = es.map record := by
    have hd := (json_decodes ds).2
    rw [h, (json_decodes es).2] at hd
    simpa using hd.symm
  refine (List.map_inj_right fun d e h => ?_).1 hrecords
  obtain ⟨⟩ := d
  obtain ⟨⟩ := e
  simp_all [record]

end AlLint.Report
