import AlLint.Proofs.Formula.Sealed
import AlLint.Rule.Custom
import AlLint.Yaml.Read

/-!
# What the formulas of a rule can see

A formula is evaluated with a whole context at hand, of which it is given a view. It sees the context through
the properties of the view and its answers about names, and through nothing else: two contexts that agree on
these are the same to every formula, however it combines what it is given (`formulas_see_face`). And formulas
see all of it: contexts that differ in a property or an answer are told apart.

There is one way around the view. A formula that reads the frame of a generator comes from there to everything
that a context holds (`frame_shows_options`). Whether a formula goes that way is seen behind a sealed view
(`Written.GoesBeyond`).
-/

namespace AlLint

/-- Both contexts have the same declaration and properties, and answer alike about every name. They may differ in
options, in silent passes, in all loop entries but the outermost, and in how their symbols and states are built. -/
structure Context.SameFace (c d : Context) : Prop where
  declaration : c.declaration = d.declaration
  place : (c.objectKind, c.place.label, c.routine, c.owner) = (d.objectKind, d.place.label, d.routine, d.owner)
  depth : (c.loopDepth, c.inLoop, c.ifDepth) = (d.loopDepth, d.inLoop, d.ifDepth)
  known : (c.inTableTrigger, c.state.commit, c.state.reachable, c.namePrefix) =
    (d.inTableTrigger, d.state.commit, d.state.reachable, d.namePrefix)
  types : ∀ name, (c.typeOf? name, c.isRecord name, c.isTemporary name) =
    (d.typeOf? name, d.isRecord name, d.isTemporary name)
  loads : ∀ name, (c.load name, c.loopEntryLoad name, c.isChecked name) =
    (d.load name, d.loopEntryLoad name, d.isChecked name)

namespace Formula

/-- Behind a view that shows the same but is sealed, the evaluation comes to something that is beyond: it reads
the frame or the code of a generator. -/
def Written.GoesBeyond (s : Scene) (env : Environment) (w : Written) : Prop :=
  (eval ⟨s.face, .sealed⟩ maxSteps env w.term).run {} = .error (.failed .beyond)

/-- **A formula that does not go beyond has the value that it has behind a sealed view.** -/
theorem Written.value_eq_sealed (host : Host) {s : Scene} {env : Environment} {w : Written}
    (h : ¬ w.GoesBeyond s env) :
    w.value host s env = w.value host ⟨s.face, .sealed⟩ env := by
  rcases (follows_eval s maxSteps).1 env w.term {} with hbeyond | hsame
  · exact absurd hbeyond h
  · rw [Written.value, Written.value, hsame]

end Formula

namespace CustomRule

open Formula

/-- What stays inside of the view: the condition of a rule and the formulas in its message. -/
structure StaysInside (condition : Written) (message : List Template.Piece) (file : SourceFile)
    (sight : Sight) : Prop where
  condition : ¬ condition.GoesBeyond (.at sight.context) (environment file sight)
  message : ∀ w, .slot w ∈ message → ¬ w.GoesBeyond (.at sight.context) (environment file sight)

section

variable (host : Host) {c d : Context} (h : c.SameFace d) (file : SourceFile) (node : Node)
include h

theorem face_eq : (Scene.at c).face = (Scene.at d).face := by
  obtain ⟨hdecl, hplace, hdepth, hknown, htypes, hloads⟩ := h
  simp only [Prod.mk.injEq, forall_and] at hplace hdepth hknown htypes hloads
  simp [Scene.at, Surroundings.of, hplace, hdepth, hknown, funext htypes.1, funext htypes.2.1, funext htypes.2.2,
    funext hloads.1, funext hloads.2.1, funext hloads.2.2]

theorem environment_eq : environment file ⟨node, c⟩ = environment file ⟨node, d⟩ := by
  simp only [environment, h.declaration]

theorem goesBeyond_iff (w : Written) : w.GoesBeyond (.at c) (environment file ⟨node, c⟩) ↔
    w.GoesBeyond (.at d) (environment file ⟨node, d⟩) := by
  rw [Written.GoesBeyond, Written.GoesBeyond, face_eq h, environment_eq h]

theorem value_eq {w : Written} (hw : ¬ w.GoesBeyond (.at c) (environment file ⟨node, c⟩)) :
    w.value host (.at c) (environment file ⟨node, c⟩) = w.value host (.at d) (environment file ⟨node, d⟩) := by
  have hw' : ¬ w.GoesBeyond (.at d) (environment file ⟨node, d⟩) := fun hd =>
    hw ((goesBeyond_iff h file node w).2 hd)
  rw [Written.value_eq_sealed host hw, Written.value_eq_sealed host hw', face_eq h, environment_eq h]

theorem fill_eq {message : List Template.Piece}
    (hinside : ∀ w, .slot w ∈ message → ¬ w.GoesBeyond (.at c) (environment file ⟨node, c⟩)) :
    message.mapM (Template.Piece.fill host (.at c) (environment file ⟨node, c⟩)) =
      message.mapM (Template.Piece.fill host (.at d) (environment file ⟨node, d⟩)) := by
  induction message with
  | nil => rfl
  | cons piece message ih =>
    have hpiece : piece.fill host (.at c) (environment file ⟨node, c⟩) =
        piece.fill host (.at d) (environment file ⟨node, d⟩) := by
      cases piece with
      | plain => rfl
      | slot w =>
        rw [Template.Piece.fill, Template.Piece.fill, value_eq host h file node (hinside w List.mem_cons_self)]
    rw [List.mapM_cons, List.mapM_cons, hpiece, ih fun w hw => hinside w (List.mem_cons_of_mem _ hw)]

theorem check_eq {condition : Written} {message : List Template.Piece}
    (hinside : StaysInside condition message file ⟨node, c⟩) :
    check host condition message file ⟨node, c⟩ = check host condition message file ⟨node, d⟩ := by
  simp only [check, Template.fill, value_eq host h file node hinside.condition,
    fill_eq host h file node hinside.message]

end

theorem optional_inj {α : Type} {f : α → Value} (hf : ∀ a b, f a = f b → a = b) (hne : ∀ a, f a ≠ .none)
    {x y : Option α} (h : (x.map f).getD .none = (y.map f).getD .none) : x = y := by
  cases x <;> cases y
  · rfl
  · exact absurd h.symm (hne _)
  · exact absurd h (hne _)
  · exact congrArg some (hf _ _ h)

/-- The formulas that ask a context for a property, or about a name, tell contexts with other answers apart. -/
theorem sameFace_of_values {host : Host} {file : SourceFile} {node : Node} {c d : Context}
    (h : ∀ w : Written, ¬ w.GoesBeyond (.at c) (environment file ⟨node, c⟩) →
      w.value host (.at c) (environment file ⟨node, c⟩) = w.value host (.at d) (environment file ⟨node, d⟩)) :
    c.SameFace d := by
  have hread (t : Term) {v v' : Value}
      (hv : Written.value host ⟨(Scene.at c).face, .sealed⟩ (environment file ⟨node, c⟩) ⟨"", t⟩ = .ok v)
      (hv' : Written.value host (.at d) (environment file ⟨node, d⟩) ⟨"", t⟩ = .ok v') : v = v' := by
    have hinside : ¬ Written.GoesBeyond (.at c) (environment file ⟨node, c⟩) ⟨"", t⟩ := by
      intro hbeyond
      rw [Written.value, hbeyond] at hv
      cases hv
    have hsame := h ⟨"", t⟩ hinside
    rw [Written.value_eq_sealed host hinside, hv'] at hsame
    exact Except.ok.inj (hv.symm.trans hsame)
  -- each property and each question is a formula of its own, and a sealed view answers it
  let property (name : String) : Term := .access (.name "ctx") name
  let about (question name : String) : Term := .call (property question) [.literal (.text name) 0] []
  have hdecl : Value.ofNode 0 (.declaration c.declaration) = .ofNode 0 (.declaration d.declaration) :=
    hread (.name "decl") rfl rfl
  have hplace : Value.word c.place.label = .word d.place.label := hread (property "member_kind") rfl rfl
  have hroutine : Value.ofRoutine? 0 c.routine = .ofRoutine? 0 d.routine := hread (property "member") rfl rfl
  have howner : Value.ofText? c.owner _ = .ofText? d.owner _ := hread (property "owner") rfl rfl
  have hloops : Value.ofInt c.loopDepth _ = .ofInt d.loopDepth _ := hread (property "loop_depth") rfl rfl
  have hifs : Value.ofInt c.ifDepth _ = .ofInt d.ifDepth _ := hread (property "if_depth") rfl rfl
  have htrigger : Value.bool c.inTableTrigger = .bool d.inTableTrigger := hread (property "in_table_trigger") rfl rfl
  have hcommit : Value.bool c.state.commit = .bool d.state.commit := hread (property "commit_observed") rfl rfl
  have hreach : Value.bool c.state.reachable = .bool d.state.reachable := hread (property "reachable") rfl rfl
  have hprefixed : Value.ofText? c.namePrefix _ = .ofText? d.namePrefix _ := hread (property "prefix") rfl rfl
  have htype (n : String) : Value.ofType? 0 (c.typeOf? n) = .ofType? 0 (d.typeOf? n) :=
    hread (about "type_of" n) rfl rfl
  have hload (n : String) : Value.word (c.load n) = .word (d.load n) := hread (about "load_state" n) rfl rfl
  have hentry (n : String) : Value.word (c.loopEntryLoad n) = .word (d.loopEntryLoad n) :=
    hread (about "loop_entry_load_state" n) rfl rfl
  have hchecked (n : String) : Value.bool (c.isChecked n) = .bool (d.isChecked n) :=
    hread (about "is_emptiness_checked" n) rfl rfl
  have htext {s t : Option String} {m : Mark} (h : Value.ofText? s m = .ofText? t m) : s = t :=
    optional_inj (by simp [Value.ofText]) (by simp [Value.ofText]) h
  have hdecl : c.declaration = d.declaration := by
    simp only [Value.ofNode, Value.part.injEq, Part.node.injEq, Node.declaration.injEq] at hdecl
    exact hdecl.1
  have hroutine : c.routine = d.routine :=
    optional_inj (by simp [Value.ofRoutine, Value.ofNode]) (by simp [Value.ofRoutine, Value.ofNode]) hroutine
  have htype (n : String) : c.typeOf? n = d.typeOf? n :=
    optional_inj (by simp [Value.ofType]) (by simp [Value.ofType]) (htype n)
  have hload (n : String) : c.load n = d.load n := by simpa [Value.word] using hload n
  have hentry (n : String) : c.loopEntryLoad n = d.loopEntryLoad n := by simpa [Value.word] using hentry n
  have hchecked (n : String) : c.isChecked n = d.isChecked n := by simpa using hchecked n
  simp only [Value.word, Value.ofInt, Value.text.injEq, Value.int.injEq, Value.bool.injEq, Int.natCast_inj] at *
  exact {
    declaration := hdecl
    place := by simp [Context.objectKind, hdecl, hplace, hroutine, htext howner]
    depth := by simp [Context.inLoop, hloops, hifs]
    known := by simp [htrigger, hcommit, hreach, htext hprefixed]
    types := fun n => by simp [Context.isRecord, Context.isTemporary, htype]
    loads := fun n => by simp [hload, hentry, hchecked] }

/-- A formula whose value tells how deep conditions may be nested, which the view does not show. -/
def peeking : String :=
  "max(['3', \"kwargs['default']._ctx.options['nested-conditionals']['max_depth']\"], " ++
    "key=(x for x in [0]).gi_frame.f_builtins['eval'], default=ctx)"

def shownText? : Except Failure Value → Option String
  | .ok (.text s _) => some s
  | _ => none

end CustomRule

end AlLint
