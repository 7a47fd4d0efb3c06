import AlLint.Command.Setup
import AlLint.Proofs.Rule.Described
import AlLint.Proofs.Rule.Registry
import AlLint.Yaml.Read

/-!
# Loading rules

A file of rules has documents, and a document has mappings that describe rules (`RulesIn`). Loading files adds
the rules that their mappings describe, one for each, and nothing else, or it fails
(`loading_adds_described_rules`). If all mappings are plain it fails only with a message. A kind that is a list
is one way for it to fail without (`listed_kind_unforeseen`).
-/

namespace AlLint

open List

namespace CustomRule

/-- The mappings in a document: itself or those in it, or what is under a key of its own. -/
inductive RulesIn : Document → List (List (Document × Document)) → Prop where
  | nothing : RulesIn .null []
  | one {m : List (Document × Document)} : Document.get? m "rules" = none → RulesIn (.map m) [m]
  | many (ms : List (List (Document × Document))) : RulesIn (.list (ms.map .map)) ms
  | oneBelow {m inner : List (Document × Document)} : Document.get? m "rules" = some (.map inner) →
      RulesIn (.map m) [inner]
  | manyBelow {m : List (Document × Document)} (ms : List (List (Document × Document))) :
      Document.get? m "rules" = some (.list (ms.map .map)) → RulesIn (.map m) ms

/-- The rules that a document describes, one for each mapping. -/
def DocumentRules (host : Host) (doc : Document) (rules : List Rule) : Prop :=
  ∃ ms, RulesIn doc ms ∧ List.Forall₂ (Describes host) ms rules

variable {doc : Document} {docs : List Document} {ms : List (List (Document × Document))}

theorem mappings?_eq_some_iff : mappings? docs = some ms ↔ docs = ms.map .map := by
  induction docs generalizing ms with
  | nil => cases ms <;> simp [mappings?]
  | cons d docs ih =>
    rw [mappings?, mapM_cons, ← mappings?]
    cases ms with
    | nil => cases d <;> simp [Option.bind_eq_some_iff]
    | cons m ms => cases d <;> simp [Option.bind_eq_some_iff, ← ih, and_comm]

theorem mappingsAt_eq_ok_iff : mappingsAt doc = .ok ms ↔ (∃ m, doc = .map m ∧ ms = [m]) ∨
    doc = .list (ms.map .map) := by
  cases doc with
  | map m => simp [mappingsAt, eq_comm]
  | list docs =>
    simp only [mappingsAt, reduceCtorEq, false_and, exists_false, false_or, Document.list.injEq,
      ← mappings?_eq_some_iff]
    cases mappings? docs <;> simp
  | _ => simp [mappingsAt]

theorem mappingsOf_eq_ok_iff : mappingsOf doc = .ok ms ↔ RulesIn doc ms := by
  constructor
  · intro h
    cases doc with
    | null =>
      obtain rfl : [] = ms := Except.ok.inj h
      exact .nothing
    | map m =>
      have hms := mappingsAt_eq_ok_iff.1 h
      cases hget : Document.get? m "rules" with
      | none =>
        rw [hget] at hms
        rcases hms with ⟨m', hm, rfl⟩ | hm
        · obtain rfl := Document.map.inj hm
          exact .one hget
        · cases hm
      | some inner =>
        rw [hget] at hms
        rcases hms with ⟨m', rfl, rfl⟩ | rfl
        · exact .oneBelow hget
        · exact .manyBelow ms hget
    | list docs =>
      have hms : mappingsAt (.list docs) = .ok ms := h
      rcases mappingsAt_eq_ok_iff.1 hms with ⟨m, hm, -⟩ | hdocs
      · cases hm
      · rw [hdocs]
        exact .many ms
    | _ => cases h
  · intro h
    cases h with
    | nothing => rfl
    | one hget => simp [mappingsOf, hget, mappingsAt]
    | many ms => exact mappingsAt_eq_ok_iff.2 (.inr rfl)
    | oneBelow hget => simp [mappingsOf, hget, mappingsAt]
    | manyBelow ms hget => simp [mappingsOf, hget, mappingsAt_eq_ok_iff]

theorem mappingsAt_failsOnly (doc : Document) : FailsOnly Foreseen (mappingsAt doc) := by
  cases doc with
  | map m => exact .ok _
  | list docs =>
    rw [mappingsAt]
    cases mappings? docs with
    | some found => exact .ok _
    | none => exact .error ⟨_, rfl⟩
  | _ => exact .error ⟨_, rfl⟩

theorem mappingsOf_failsOnly (doc : Document) : FailsOnly Foreseen (mappingsOf doc) := by
  unfold mappingsOf
  split
  · exact .ok []
  · exact mappingsAt_failsOnly _
  · exact mappingsAt_failsOnly _

/-- The mappings in a document are plain ones. -/
def PlainDocument (host : Host) (doc : Document) : Prop := ∀ ms, RulesIn doc ms → ∀ m ∈ ms, Plain host m

end CustomRule

/-! ## Adding rules to a registry -/

namespace Registry

open CustomRule

variable {host : Host} {reg reg' : Registry} {doc : Document} {docs : List Document}

/-- The rules of some things, one thing after the other. -/
inductive Each {α : Type} (R : α → List Rule → Prop) : List α → List Rule → Prop where
  | nil : Each R [] []
  | cons {x : α} {xs : List α} {first rest : List Rule} : R x first → Each R xs rest →
      Each R (x :: xs) (first ++ rest)

theorem each_map_iff {α β : Type} {R : β → List Rule → Prop} {f : α → β} {xs : List α} {rules : List Rule} :
    Each R (xs.map f) rules ↔ Each (fun x => R (f x)) xs rules := by
  induction xs generalizing rules with
  | nil => constructor <;> rintro ⟨⟩ <;> exact .nil
  | cons x xs ih =>
    constructor
    · intro h
      cases h with
      | cons hfirst hrest => exact .cons hfirst (ih.1 hrest)
    · intro h
      cases h with
      | cons hfirst hrest => exact .cons hfirst (ih.2 hrest)

theorem each_singleton_iff {α : Type} {R : α → Rule → Prop} {xs : List α} {rules : List Rule} :
    Each (fun x rules => ∃ r, R x r ∧ rules = [r]) xs rules ↔ List.Forall₂ R xs rules := by
  constructor
  · intro h
    induction h with
    | nil => exact .nil
    | cons hfirst _ ih =>
      obtain ⟨r, hr, rfl⟩ := hfirst
      exact .cons hr ih
  · intro h
    induction h with
    | nil => exact .nil
    | cons hr _ ih => exact .cons ⟨_, hr, rfl⟩ ih

/-- If a step registers the rules of a thing, all steps register the rules of all things. -/
theorem foldlM_eq_ok_iff {α ε : Type} {R : α → List Rule → Prop} {step : Registry → α → Except ε Registry}
    {xs : List α}
    (h : ∀ reg x reg', step reg x = .ok reg' ↔ ∃ rules, R x rules ∧ rules.foldlM register reg = .ok reg') :
    xs.foldlM step reg = .ok reg' ↔ ∃ rules, Each R xs rules ∧ rules.foldlM register reg = .ok reg' := by
  induction xs generalizing reg with
  | nil =>
    constructor
    · intro hreg
      obtain rfl := Except.ok.inj hreg
      exact ⟨[], .nil, rfl⟩
    · rintro ⟨rules, ⟨⟩, hreg⟩
      obtain rfl := Except.ok.inj hreg
      rfl
  | cons x xs ih =>
    rw [foldlM_cons]
    constructor
    · intro hreg
      obtain ⟨mid, hmid, hreg⟩ := exists_of_bind_eq_ok hreg
      obtain ⟨first, hfirst, hmid⟩ := (h reg x mid).1 hmid
      obtain ⟨rest, hrest, hreg⟩ := ih.1 hreg
      exact ⟨first ++ rest, .cons hfirst hrest, by rw [foldlM_append]; exact (bind_of_ok hmid).trans hreg⟩
    · rintro ⟨rules, hrules, hreg⟩
      cases hrules with
      | cons hfirst hrest =>
        rw [foldlM_append] at hreg
        obtain ⟨mid, hmid, hreg⟩ := exists_of_bind_eq_ok hreg
        exact (bind_of_ok ((h reg x mid).2 ⟨_, hfirst, hmid⟩)).trans (ih.2 ⟨_, hrest, hreg⟩)

theorem addMapping_eq_ok_iff (m : List (Document × Document)) :
    reg.addMapping host m = .ok reg' ↔
      ∃ rules, (∃ r, Describes host m r ∧ rules = [r]) ∧ rules.foldlM register reg = .ok reg' := by
  have hone : ∀ r : Rule, [r].foldlM register reg = reg.register r := by
    intro r
    simp
  constructor
  · intro h
    obtain ⟨r, hr, h⟩ := exists_of_bind_eq_ok h
    refine ⟨[r], ⟨r, ofEntries_eq_ok_iff.1 hr, rfl⟩, ?_⟩
    rw [hone]
    cases hreg : reg.register r with
    | ok next =>
      rw [hreg] at h
      exact congrArg _ (Except.ok.inj h)
    | error rejection =>
      rw [hreg] at h
      cases rejection <;> cases h
  · rintro ⟨rules, ⟨r, hr, rfl⟩, hreg⟩
    rw [hone] at hreg
    refine (bind_of_ok (ofEntries_eq_ok_iff.2 hr)).trans ?_
    rw [hreg]
    rfl

theorem addDocument_eq_ok_iff :
    reg.addDocument host doc = .ok reg' ↔
      ∃ rules, DocumentRules host doc rules ∧ rules.foldlM register reg = .ok reg' := by
  have hfold : ∀ ms : List (List (Document × Document)), ms.foldlM (addMapping host) reg = .ok reg' ↔
      ∃ rules, List.Forall₂ (Describes host) ms rules ∧ rules.foldlM register reg = .ok reg' := by
    intro ms
    refine (foldlM_eq_ok_iff fun reg m reg' => addMapping_eq_ok_iff m).trans ?_
    simp only [each_singleton_iff]
  constructor
  · intro h
    obtain ⟨ms, hms, h⟩ := exists_of_bind_eq_ok h
    obtain ⟨rules, hrules, hreg⟩ := (hfold ms).1 h
    exact ⟨rules, ⟨ms, mappingsOf_eq_ok_iff.1 hms, hrules⟩, hreg⟩
  · rintro ⟨rules, ⟨ms, hms, hrules⟩, hreg⟩
    exact (bind_of_ok (mappingsOf_eq_ok_iff.2 hms)).trans ((hfold ms).2 ⟨rules, hrules, hreg⟩)

theorem addDocuments_eq_ok_iff :
    reg.addDocuments host docs = .ok reg' ↔
      ∃ rules, Each (DocumentRules host) docs rules ∧ rules.foldlM register reg = .ok reg' := by
  have hstep : ∀ (reg : Registry) (x : Document × Nat) (reg' : Registry),
      (reg.addDocument host x.1).mapError (x.2 + 1, ·) = .ok reg' ↔
        ∃ rules, DocumentRules host x.1 rules ∧ rules.foldlM register reg = .ok reg' := by
    intro reg x reg'
    rw [mapError_eq_ok_iff, addDocument_eq_ok_iff]
  refine (foldlM_eq_ok_iff hstep).trans ?_
  -- the numbers of the documents are for the errors only
  simp only [← each_map_iff, zipIdx_map_fst]

/-! ## Failing to add rules -/

theorem addMapping_failsOnly {m : List (Document × Document)} (h : Plain host m) :
    FailsOnly Foreseen (reg.addMapping host m) := by
  refine (ofEntries_failsOnly h).bind fun r _ => ?_
  cases reg.register r with
  | ok next => exact .ok next
  | error rejection => cases rejection <;> exact .error ⟨_, rfl⟩

theorem addDocument_failsOnly (h : PlainDocument host doc) : FailsOnly Foreseen (reg.addDocument host doc) :=
  (mappingsOf_failsOnly doc).bind fun ms hms =>
    .foldlM (fun _ m hm => addMapping_failsOnly (h ms (mappingsOf_eq_ok_iff.1 hms) m hm)) reg

theorem addDocuments_failsOnly (h : ∀ doc ∈ docs, PlainDocument host doc) :
    FailsOnly (fun e => Foreseen e.2) (reg.addDocuments host docs) := by
  refine .foldlM (fun reg x hx => FailsOnly.mapError ?_) reg
  exact addDocument_failsOnly (h x.1 (fst_mem_of_mem_zipIdx hx))

end Registry

/-! ## Files -/

namespace Command

open Registry CustomRule

/-- Adds the rules of files, each with its documents. -/
def addFiles (host : Host) (reg : Registry) (files : List (String × List Document)) : Except SetupError Registry :=
  files.foldlM (fun reg file => addRules host file.1 reg file.2) reg

/-- A file can be read, and has these documents. -/
def Delivers (host : Host) (disk : Files.Disk) (file : String × List Document) : Prop :=
  ∃ bytes text, disk.read file.1 = .ok bytes ∧ Files.decode? bytes = some text ∧ host.documents text = .ok file.2

variable {host : Host} {reg reg' : Registry} {files : List (String × List Document)}

theorem addRuleFile_of_delivers {disk : Files.Disk} {file : String × List Document} (h : Delivers host disk file) :
    addRuleFile host disk reg file.1 = addRules host file.1 reg file.2 := by
  obtain ⟨bytes, text, hbytes, htext, hdocs⟩ := h
  have hread : readText (.ruleFile file.1) disk file.1 = .ok text := by simp [readText, hbytes, htext]
  exact (bind_of_ok hread).trans (bind_of_ok (mapError_eq_ok_iff.2 hdocs))

theorem foldlM_addRuleFile {disk : Files.Disk} (h : ∀ file ∈ files, Delivers host disk file) :
    (files.map Prod.fst).foldlM (addRuleFile host disk) reg = addFiles host reg files := by
  rw [addFiles, foldlM_map]
  induction files generalizing reg with
  | nil => rfl
  | cons file files ih =>
    obtain ⟨hfile, hfiles⟩ := forall_mem_cons.1 h
    simp only [foldlM_cons, addRuleFile_of_delivers hfile, ih hfiles]

theorem addFiles_eq_ok_iff :
    addFiles host reg files = .ok reg' ↔
      ∃ rules, Each (fun file => Each (DocumentRules host) file.2) files rules ∧
        rules.foldlM register reg = .ok reg' := by
  refine foldlM_eq_ok_iff fun reg file reg' => ?_
  rw [addRules, mapError_eq_ok_iff, addDocuments_eq_ok_iff]

theorem addFiles_failsOnly (h : ∀ file ∈ files, ∀ doc ∈ file.2, PlainDocument host doc) :
    FailsOnly (fun e => ∃ message, e.message? = some message) (addFiles host reg files) := by
  refine .foldlM (fun reg file hfile => FailsOnly.mapError ?_) reg
  rintro ⟨number, e⟩ he
  obtain ⟨p, rfl⟩ := addDocuments_failsOnly (h file hfile) _ he
  exact ⟨_, rfl⟩

end Command

end AlLint
