import AlLint.Reading.Grammar

/-!
# Tokens that readers spare

Most readers know the tokens that they take, and there are some that they never do: a semicolon, which those
that know it ask for by itself, a closing brace, and the words that open or close a part of code.
-/

namespace AlLint

open List

namespace Token

variable {t : Token} {s : String} {words : List String}

theorem isOpIn_iff : t.isOpIn words = true ↔ t.kind = .op ∧ t.text ∈ words := by
  simp [isOpIn]

theorem isOp_iff : t.isOp s = true ↔ t.kind = .op ∧ t.text = s := by
  simp [isOp, isOpIn]

theorem isOpIn_of_isOp (h : t.isOp s = true) (hs : s ∈ words) : t.isOpIn words = true := by
  obtain ⟨hkind, rfl⟩ := isOp_iff.1 h
  exact isOpIn_iff.2 ⟨hkind, hs⟩

theorem isWordIn_iff : t.isWordIn words = true ↔ t.kind = .ident ∧ Text.lower t.value ∈ words := by
  simp [isWordIn]

theorem isWord_iff : t.isWord s = true ↔ t.kind = .ident ∧ Text.lower t.value = s := by
  simp [isWord, isWordIn]

theorem isOpIn_eq_false {ops : List String} (hsub : ∀ s ∈ ops, s ∈ words) (h : t.isOpIn words = false) :
    t.isOpIn ops = false := by
  rw [← Bool.not_eq_true, isOpIn_iff] at h ⊢
  exact fun ⟨hkind, hmem⟩ => h ⟨hkind, hsub _ hmem⟩

theorem isWordIn_eq_false {fewer : List String} (hsub : ∀ s ∈ fewer, s ∈ words) (h : t.isWordIn words = false) :
    t.isWordIn fewer = false := by
  rw [← Bool.not_eq_true, isWordIn_iff] at h ⊢
  exact fun ⟨hkind, hmem⟩ => h ⟨hkind, hsub _ hmem⟩

end Token

namespace Reading

variable {t : Token} {op word : String}

section

variable {ops : List String} (h : t.isOpIn ops = true)
include h

theorem kind_of_isOpIn : t.kind = .op := (Token.isOpIn_iff.1 h).1

theorem isOp_of_isOpIn (hop : op ∉ ops) : t.isOp op = false := by
  have hne : t.text ≠ op := fun heq => hop (heq ▸ (Token.isOpIn_iff.1 h).2)
  simp [Token.isOp, Token.isOpIn, hne]

theorem isWordIn_of_isOpIn (words : List String) : t.isWordIn words = false := by
  simp [Token.isWordIn, kind_of_isOpIn h]

theorem isWord_of_isOpIn (word : String) : t.isWord word = false := isWordIn_of_isOpIn h [word]

theorem isName_of_isOpIn : t.isName = false := by
  simp [Token.isName, kind_of_isOpIn h]

theorem find?_isOp_of_isOpIn {α : Type} {text : α → String} {l : List α} (hl : ∀ a ∈ l, text a ∉ ops) :
    l.find? (fun a => t.isOp (text a)) = none :=
  find?_eq_none.2 fun a ha => Bool.not_eq_true _ ▸ isOp_of_isOpIn h (hl a ha)

end

theorem isOp_of_brace (h : t.isOp "\x7d" = true) (hop : op ≠ "\x7d") : t.isOp op = false :=
  isOp_of_isOpIn h (mt mem_singleton.1 hop)

theorem not_brace_of_isOp (h : t.isOp op = true) (hop : op ≠ "\x7d") : t.isOp "\x7d" = false :=
  isOp_of_isOpIn h (mt mem_singleton.1 hop.symm)

/-- The words that open a part of code with statements of its own, and those that close it. -/
def blockWords : List String := ["begin", "case", "repeat", "end", "until"]

section

variable (h : t.isWordIn blockWords = true)
include h

theorem kind_of_blockWord : t.kind = .ident := (Token.isWordIn_iff.1 h).1

theorem isOp_of_blockWord (op : String) : t.isOp op = false := by simp [Token.isOp, Token.isOpIn, kind_of_blockWord h]

theorem isWord_of_blockWord (hword : word ∉ blockWords) : t.isWord word = false := by
  have hne : Text.lower t.value ≠ word := fun heq => hword (heq ▸ (Token.isWordIn_iff.1 h).2)
  simp [Token.isWord, Token.isWordIn, hne]

theorem find?_isWord_of_blockWord {α : Type} {text : α → String} {l : List α} (hl : ∀ a ∈ l, text a ∉ blockWords) :
    l.find? (fun a => t.isWord (text a)) = none :=
  find?_eq_none.2 fun a ha => Bool.not_eq_true _ ▸ isWord_of_blockWord h (hl a ha)

end

/-- Takes neither a semicolon nor a closing brace, and no word that opens or closes a part of code. -/
class Spares {α : Type} (f : Token → Option α) : Prop where
  op : ∀ t : Token, t.isOpIn [";", "\x7d"] = true → f t = none
  word : ∀ t : Token, t.isWordIn blockWords = true → f t = none

instance (level : Level) : Spares level.operator? where
  op t ht := by
    have hsigns := find?_isOp_of_isOpIn ht (show ∀ op ∈ level.signs, op.text ∉ _ by cases level <;> decide)
    simp [Level.operator?, hsigns, isWord_of_isOpIn ht]
  word t ht := by
    have hwords := find?_isWord_of_blockWord ht (show ∀ op ∈ level.words, op.text ∉ _ by cases level <;> decide)
    have hsigns : level.signs.find? (fun op => t.isOp op.text) = none := by simp [isOp_of_blockWord ht]
    simp [Level.operator?, hsigns, hwords]

instance : Spares unaryOp? where
  op t ht := by simp [unaryOp?, isWord_of_isOpIn ht, isOp_of_isOpIn ht]
  word t ht := by simp [unaryOp?, isOp_of_blockWord ht, isWord_of_blockWord ht (show "not" ∉ blockWords by decide)]

instance (literal : Bool) : Spares (Suffix.of? literal) where
  op t ht := by simp [Suffix.of?, isOp_of_isOpIn ht]
  word t ht := by simp [Suffix.of?, isOp_of_blockWord ht]

instance : Spares Start.of? where
  op t ht := by
    obtain ⟨hkind, htext⟩ := Token.isOpIn_iff.1 ht
    have hother : ∀ sign ∈ [";", "\x7d"], sign ≠ "(" ∧ sign ≠ "[" := by decide
    simp [Start.of?, hkind, hother _ htext]
  word t ht := by
    have hreserved : ∀ word ∈ blockWords, word ∉ ["true", "false"] ∧ word ∈ reservedWords := by decide
    have hword := hreserved _ (Token.isWordIn_iff.1 ht).2
    simp [Start.of?, kind_of_blockWord ht, Token.lower, hword.2]
    simpa using hword.1

instance : Spares assignOp? where
  op t ht := find?_isOp_of_isOpIn ht (by decide)
  word t ht := by simp [assignOp?, isOp_of_blockWord ht]

instance : Spares jump? where
  op t ht := by simp [jump?, isWord_of_isOpIn ht]
  word t ht := find?_isWord_of_blockWord ht (by decide)

instance : Spares visibility? where
  op t ht := by simp [visibility?, isWord_of_isOpIn ht]
  word t ht := find?_isWord_of_blockWord ht (by decide)

instance (next : Token) : Spares (byRef? next) where
  op t ht := by simp [byRef?, isWord_of_isOpIn ht]
  word t ht := by simp [byRef?, isWord_of_blockWord ht (show "var" ∉ blockWords by decide)]

end Reading

end AlLint
