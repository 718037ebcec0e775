import FiscoBcos.Executive.Executive

/-!
# What a failed execution leaves behind

On one thread the savepoints of nested executions nest like the executions. Two things break this: a creation that is
denied rolls back to 0, and the frame that is moved to a new thread has a savepoint of the old thread's log.
-/

namespace FiscoBcos

open Option Set

namespace Executive

open MemoryTableFactory2

open MemoryTableFactory2 (Restored Sane)

/-- Every table answers every query as before, and a table that has been opened meanwhile as a new one. -/
structure SameAnswers (db : StateStorage) (f f' : MemoryTableFactory2) : Prop where
  kept : ∀ (name : Str) t, f.name2Table[name]? = some t → ∃ t', f'.name2Table[name]? = some t' ∧
    ∀ key condition, t'.select db key condition = t.select db key condition
  opened : ∀ (name : Str) t', f.name2Table[name]? = none → f'.name2Table[name]? = some t' →
    ∀ key condition, t'.select db key condition = (MemoryTable2.opened t'.info).select db key condition

/-- From `f₀` to `f` there are changes that a rollback takes back, whatever restored `f` in between. -/
structure Undoable (db : StateStorage) (f₀ f : MemoryTableFactory2) : Prop where
  savepoint_le : f₀.savepoint ≤ f.savepoint
  sane : f₀.Sane → f.Sane
  undo : ∀ f', Restored db univ f f' → Restored db univ f₀ (f'.rollback f₀.savepoint)

variable {db : StateStorage} {f f₀ f₁ f₂ : MemoryTableFactory2}

lemma sameAnswers_of_restored (h : Restored db univ f f₁) : SameAnswers db f f₁ where
  kept name t ht := by
    obtain ⟨t', ht', hrest⟩ := h.kept name trivial t ht
    exact ⟨t', ht', hrest.select_eq⟩
  opened name t' hnone ht' := (h.opened name trivial t' hnone ht').select_eq

namespace Undoable

lemma refl (f : MemoryTableFactory2) : Undoable db f f where
  savepoint_le := le_rfl
  sane := id
  undo f' h := by rwa [rollback_of_log h.log]

lemma trans (h : Undoable db f₀ f₁) (h' : Undoable db f₁ f₂) : Undoable db f₀ f₂ where
  savepoint_le := h.savepoint_le.trans h'.savepoint_le
  sane := h'.sane ∘ h.sane
  undo f' hf' := by
    have hundo := h.undo _ (h'.undo f' hf')
    rwa [rollback_rollback h.savepoint_le] at hundo

lemma restored (h : Undoable db f₀ f) : Restored db univ f₀ (f.rollback f₀.savepoint) :=
  h.undo f (.refl f)

lemma rollback (h : Undoable db f₀ f) : Undoable db f₀ (f.rollback f₀.savepoint) where
  savepoint_le := (congrArg List.length h.restored.log).ge
  sane hsane := sane_of_infoOf (h.sane hsane) (infoOf_rollback _)
  undo f' hf' := by
    have hrest := h.restored.trans hf'
    rwa [rollback_of_log hrest.log]

end Undoable

def KnownFields (db : StateStorage) (f : MemoryTableFactory2) : FactoryOp → Prop
  | .call c => f.WritesKnown db c
  | _ => True

instance (db : StateStorage) (f : MemoryTableFactory2) (op : FactoryOp) : Decidable (KnownFields db f op) :=
  match op with
  | .openTable .. => isTrue trivial
  | .createTable .. => isTrue trivial
  | .call c => inferInstanceAs (Decidable (f.WritesKnown db c))

lemma undoable_step {blockNum : Int} {op : FactoryOp} (h : KnownFields db f op) :
    Undoable db f (f.step db blockNum op) := by
  have hmoves : Relation.ReflTransGen (Move db univ) f (f.step db blockNum op) := by
    apply moves_step
    rintro c rfl -
    exact h
  constructor
  case savepoint_le => exact savepoint_le_moves hmoves
  case sane => exact sane_step op
  case undo => exact fun f' hf' => .of_moves hmoves hf'

section Frames

variable (ctx : Context)

def KnownOps (f : MemoryTableFactory2) (l : List FactoryOp) : Prop :=
  Machine.Along (step ctx.db ctx.blockNum) (KnownFields ctx.db) f l

def Frame.before : Frame → List FactoryOp
  | .call .. => []
  | .create c => .openTable SYS_TABLES true :: c.incNonce

def Frame.after : Frame → List FactoryOp
  | .call .. => []
  | .create c => if c.alreadyUsed = false ∧ c.init = some .error then c.setCode else []

section

variable (depth : Nat) (body : MemoryTableFactory2 → Prop) (run : MemoryTableFactory2 → MemoryTableFactory2)

/-- The init code stays on the thread, and updates write known fields. -/
def Creation.Careful (c : Creation) (f : MemoryTableFactory2) : Prop :=
  c.alreadyUsed = false → KnownOps ctx f c.setUp ∧ (c.init ≠ none → depth ≠ c_offloadPoint ∧ body (ops ctx f c.setUp)) ∧
    (c.init = some .success → KnownOps ctx (run (ops ctx f c.setUp)) c.setCode) ∧
    (c.init = some .error → KnownOps ctx ((run (ops ctx f c.setUp)).rollback f.savepoint) c.setCode)

def Frame.Careful (f : MemoryTableFactory2) : Frame → Prop
  | .call .precompiled _ => body f
  | .call .code _ => depth ≠ c_offloadPoint ∧ body f
  | .call _ _ => True
  | .create c => (∃ t, (f.openTable ctx.db ctx.blockNum SYS_TABLES true).1 = .table t ∧ mayDeploy ctx c t) ∧
    KnownOps ctx f (Frame.create c).before ∧ c.Careful ctx depth body run (ops ctx f (Frame.create c).before)

end

def Code.Careful (depth : Nat) : Code → MemoryTableFactory2 → Prop
  | .stop, _ => True
  | .op o rest, f => KnownFields ctx.db f o ∧ rest.Careful depth (f.step ctx.db ctx.blockNum o)
  | .inner frame body rest, f =>
    frame.Careful ctx depth (body.Careful (depth + 1)) (execute ctx (depth + 1) body) f ∧
      rest.Careful depth (runFrame ctx depth frame (execute ctx (depth + 1) body) f)

variable {ctx} {depth : Nat} {body : MemoryTableFactory2 → Prop} {run : MemoryTableFactory2 → MemoryTableFactory2}
  {c : Creation}

lemma undoable_ops {l : List FactoryOp} (h : KnownOps ctx f l) : Undoable ctx.db f (ops ctx f l) := by
  apply Machine.invariant_run (Undoable ctx.db f) _ (.refl f) h
  intro f' op hop hf'
  exact hf'.trans (undoable_step hop)

lemma go_of_ne (h : depth ≠ c_offloadPoint) : go depth run f = run f :=
  if_neg h

section

variable {t : MemoryTable2} (hopen : (f.openTable ctx.db ctx.blockNum SYS_TABLES true).1 = .table t)
  (hmay : mayDeploy ctx c t)

include hopen hmay

lemma runFrame_of_mayDeploy :
    runFrame ctx depth (.create c) run f = deploy ctx (go depth) c run (ops ctx f (Frame.create c).before) := by
  obtain ⟨f', hf'⟩ : ∃ f', f.openTable ctx.db ctx.blockNum SYS_TABLES true = (.table t, f') := ⟨_, Prod.ext hopen rfl⟩
  have hbefore : ops ctx f (Frame.create c).before =
      ops ctx (f.openTable ctx.db ctx.blockNum SYS_TABLES true).2 c.incNonce := rfl
  rw [hbefore, hf']
  change executeCreate ctx (go depth) c run f = _
  unfold executeCreate
  rw [hf']
  exact if_pos hmay

lemma createExcepted_of_mayDeploy :
    createExcepted ctx c f = (c.alreadyUsed || c.init = some .error || c.init = some .exception) := by
  obtain ⟨f', hf'⟩ : ∃ f', f.openTable ctx.db ctx.blockNum SYS_TABLES true = (.table t, f') := ⟨_, Prod.ext hopen rfl⟩
  unfold createExcepted
  rw [hf']
  simp [hmay]

end

section

variable (hbody : ∀ g, body g → Undoable ctx.db g (run g))
include hbody

lemma undoable_init (h : c.Careful ctx depth body run f) (hused : c.alreadyUsed = false) (hinit : c.init ≠ none) :
    Undoable ctx.db f (run (ops ctx f c.setUp)) := by
  obtain ⟨hsetUp, hready, -⟩ := h hused
  exact (undoable_ops hsetUp).trans (hbody _ (hready hinit).2)

open Undoable

lemma undoable_deploy (h : c.Careful ctx depth body run f) : Undoable ctx.db f (deploy ctx (go depth) c run f) := by
  unfold deploy
  cases hused : c.alreadyUsed with
  | true => exact (refl f).rollback
  | false =>
    obtain ⟨hsetUp, hready, hsuccess, herror⟩ := h hused
    have hran := undoable_init hbody h hused
    cases hinit : c.init with
    | none => exact undoable_ops hsetUp
    | some r =>
      rw [hinit] at hready hran hsuccess herror
      have hdepth := (hready (some_ne_none _)).1
      cases r with
      | success =>
        dsimp only
        rw [go_of_ne hdepth]
        exact (hran (some_ne_none _)).trans (undoable_ops (hsuccess rfl))
      | error =>
        dsimp only
        rw [go_of_ne hdepth]
        exact (hran (some_ne_none _)).rollback.trans (undoable_ops (herror rfl))
      | exception =>
        dsimp only
        rw [go_of_ne hdepth]
        exact (hran (some_ne_none _)).rollback

lemma undoable_callRC2 {callee : Callee} {excepted : Bool}
    (h : (Frame.call callee excepted).Careful ctx depth body run f) :
    Undoable ctx.db f (callRC2 ctx (go depth) callee excepted run f) := by
  have hrevert (hf : body f) : Undoable ctx.db f (revertIf excepted f.savepoint (run f)) := by
    cases excepted with
    | false => exact hbody f hf
    | true => exact (hbody f hf).rollback
  unfold callRC2
  cases callee with
  | ethereumPrecompiled => exact .refl f
  | precompiled => exact hrevert h
  | frozen => exact (refl f).rollback
  | code =>
    dsimp only
    rw [go_of_ne h.1]
    exact hrevert h.2
  | missing =>
    dsimp only
    split
    · exact (refl f).rollback
    · exact .refl f

lemma undoable_runFrame {frame : Frame} (h : frame.Careful ctx depth body run f) :
    Undoable ctx.db f (runFrame ctx depth frame run f) := by
  cases frame with
  | call => exact undoable_callRC2 hbody h
  | create =>
    obtain ⟨⟨t, hopen, hmay⟩, hbefore, hdeploy⟩ := h
    rw [runFrame_of_mayDeploy hopen hmay]
    exact (undoable_ops hbefore).trans (undoable_deploy hbody hdeploy)

lemma restored_callRC2 {callee : Callee} {excepted : Bool}
    (h : (Frame.call callee excepted).Careful ctx depth body run f) (hexcepted : callExcepted callee excepted) :
    Restored ctx.db univ f (callRC2 ctx (go depth) callee excepted run f) := by
  unfold callRC2
  cases callee with
  | ethereumPrecompiled => exact .refl f
  | precompiled =>
    cases hexcepted
    exact (hbody f h).restored
  | frozen => exact (refl f).restored
  | code =>
    cases hexcepted
    dsimp only
    rw [go_of_ne h.1]
    exact (hbody f h.2).restored
  | missing =>
    dsimp only
    split
    · exact (refl f).restored
    · exact .refl f

/-- A frame that fails is taken back, up to what it does before its savepoint and after the revert. -/
theorem restored_runFrame {frame : Frame} (h : frame.Careful ctx depth body run f) (hexcepted : frame.excepted ctx f) :
    ∃ g, Restored ctx.db univ (ops ctx f frame.before) g ∧ runFrame ctx depth frame run f = ops ctx g frame.after := by
  cases frame with
  | call => exact ⟨_, restored_callRC2 hbody h hexcepted, rfl⟩
  | create c =>
    obtain ⟨⟨t, hopen, hmay⟩, -, hdeploy⟩ := h
    have hfailed := (createExcepted_of_mayDeploy hopen hmay).symm.trans hexcepted
    rw [runFrame_of_mayDeploy hopen hmay]
    generalize ops ctx f (Frame.create c).before = start at hdeploy ⊢
    unfold deploy Frame.after
    cases hused : c.alreadyUsed with
    | true =>
      refine ⟨_, (refl start).restored, ?_⟩
      simp [hused, ops, Machine.run]
    | false =>
      have hready := (hdeploy hused).2.1
      have hran := undoable_init hbody hdeploy hused
      rw [hused] at hfailed
      cases hinit : c.init with
      | none => simp [hinit] at hfailed
      | some r =>
        rw [hinit] at hready hran hfailed
        have hdepth := (hready (some_ne_none _)).1
        have hrest := (hran (some_ne_none _)).restored
        cases r with
        | success => simp at hfailed
        | error =>
          refine ⟨_, hrest, ?_⟩
          simp [hused, hinit, go_of_ne hdepth]
        | exception =>
          refine ⟨_, hrest, ?_⟩
          simp [hinit, go_of_ne hdepth, ops, Machine.run]

end

lemma undoable_execute {code : Code} (h : code.Careful ctx depth f) : Undoable ctx.db f (execute ctx depth code f) := by
  induction code generalizing depth f with
  | stop => exact .refl f
  | op o rest ih => exact (undoable_step h.1).trans (ih h.2)
  | inner frame body rest ihbody ihrest => exact (undoable_runFrame (fun _ => ihbody) h.1).trans (ihrest h.2)

end Frames

section

open MemoryTableFactory2 (oneRow keyField oneTable tableT updateA rowUnder)

def sampleContext : Context :=
  ⟨oneRow (keyField.insert "a".toList "7".toList), 1, V2_5_0, []⟩

def valueA (db : StateStorage) (f : MemoryTableFactory2) : List Str :=
  ((f.name2Table.getD "t".toList tableT).select db "1".toList {}).map fun s => s.getField "a".toList

/-- The caller inserts a row. -/
def insertA : FactoryOp :=
  .call ("t".toList, .insert "1".toList ((∅ : FieldMap).insert "a".toList "5".toList) {})

def nested : Nat → Code → Code
  | 0, code => code
  | n + 1, code => .inner (.call .code false) (nested n code) .stop

end

end Executive

end FiscoBcos
