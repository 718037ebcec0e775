import FiscoBcos.Lib.Run
import FiscoBcos.Precompiled.Rotation

/-!
# Rotations in a block

`rotateWorkingSealer` as the transactions of a block call it through the `Executive`. The rows that one call writes are in
force in the next block only.
-/

namespace FiscoBcos

open Journal.Store WorkingSealerManagerImpl WorkingSealerManagerPrecompiled Machine

variable {ctx : ExecutiveContext} {s s' : TableFactory} {tx : RotateTx}

lemma setSystemConfigByKey_write (key : ConfigKey) (value : FieldText) (enableNumber : Int) :
    Write s (setSystemConfigByKey key value enableNumber s) := by
  unfold setSystemConfigByKey
  split
  · exact .insert ..
  · exact .update ..

lemma rotateWorkingSealer_writes (m : WorkingSealerManagerImpl) :
    Relation.ReflTransGen Write s (m.rotateWorkingSealer ctx s).2 := by
  unfold WorkingSealerManagerImpl.rotateWorkingSealer
  split
  · exact .refl
  · exact .refl
  · split
    · exact .single (setSystemConfigByKey_write _ _ _)
    refine .trans ?_ rotateSealers_writes
    unfold tryToResetNotifyNextLeaderFlag
    split
    · exact .single (setSystemConfigByKey_write _ _ _)
    · exact .refl

lemma callRC2_cases (h : callRC2 ctx s tx = some s') : (∃ selected, rotateWorkingSealer ctx tx s = (.ok selected, s')) ∨
      ∀ k, s'.rows k = s.rows k := by
  have hwrites := @rotateWorkingSealer_writes ctx s (manager tx)
  change Relation.ReflTransGen Write s (rotateWorkingSealer ctx tx s).2 at hwrites
  unfold callRC2 at h
  split at h
  case isTrue =>
    cases h
    exact .inr (restores_rollback .refl).rows_eq
  case isFalse =>
    split at h
    case h_1 selected s₁ hreturn =>
      cases h
      exact .inl ⟨selected, hreturn⟩
    case h_2 => cases h
    case h_3 e s₁ _ hthrow =>
      cases h
      rw [hthrow] at hwrites
      exact .inr (restores_rollback hwrites).rows_eq

lemma callRC2_isSome (h : (rotateWorkingSealer ctx tx s).1 ≠ .error .undefinedBehaviour) :
    (callRC2 ctx s tx).isSome := by
  unfold callRC2
  split
  · rfl
  split
  case h_1 => rfl
  case h_2 s₁ hundefined =>
    rw [hundefined] at h
    exact absurd rfl h
  case h_3 => rfl

lemma checkVRFInfos_ne_undefined {m : WorkingSealerManagerImpl} {e : RotateError}
    (h : m.checkVRFInfos ctx s = .error e) : e ≠ .undefinedBehaviour := by
  unfold checkVRFInfos at h
  rintro rfl
  split at h
  · cases h
  · dsimp only at h
    split_ifs at h <;> cases h

/-- A transaction that calls another contract. Only the working sealer manager writes the flag. -/
structure OtherTx where
  run : TableFactory → TableFactory
  keepsFlag : ∀ s, ((run s).configRows.filter fun row => row.key = .notifyRotate) =
    s.configRows.filter fun row => row.key = .notifyRotate

inductive BlockTx where
  | rotate (tx : RotateTx)
  | other (tx : OtherTx)

def executeTransaction (ctx : ExecutiveContext) (s : Option TableFactory) (tx : BlockTx) : Option TableFactory :=
  s.bind fun s =>
    match tx with
    | .rotate tx => callRC2 ctx s tx
    | .other tx => some (tx.run s)

def notifyRotateText (number : Int) (s : TableFactory) : Option FieldText :=
  (getSysteConfigByKey .notifyRotate number s.configRows).map Prod.fst

lemma getSysteConfigByKey_congr {key : ConfigKey} {number : Int} {rows rows' : List ConfigRow}
    (h : (rows.filter fun row => row.key = key) = rows'.filter fun row => row.key = key) :
    getSysteConfigByKey key number rows = getSysteConfigByKey key number rows' := by
  unfold getSysteConfigByKey
  rw [h]

lemma OtherTx.notifyRotateText_eq (tx : OtherTx) {number : Int} {s : TableFactory} :
    notifyRotateText number (tx.run s) = notifyRotateText number s := by
  unfold notifyRotateText
  rw [getSysteConfigByKey_congr (tx.keepsFlag s)]

lemma run_other (txs : List OtherTx) (s : TableFactory) (number : Int) :
    ∃ s', run (executeTransaction ctx) (some s) (txs.map .other) = some s' ∧
      notifyRotateText number s' = notifyRotateText number s := by
  induction txs generalizing s with
  | nil => exact ⟨s, rfl, rfl⟩
  | cons tx txs ih =>
    obtain ⟨s', hrun, htext⟩ := ih (tx.run s)
    exact ⟨s', hrun, htext.trans tx.notifyRotateText_eq⟩

lemma shouldRotate_of_notifyRotateText (h : notifyRotateText ctx.number s = some (.number 1))
    (m : WorkingSealerManagerImpl) : ∃ m', m.shouldRotate ctx s = .ok (m', true) := by
  obtain ⟨info, hinfo, htext⟩ := Option.map_eq_some_iff.mp h
  have hflag : notifyRotateFlag ctx s = .ok true := by
    unfold notifyRotateFlag getConfig
    rw [hinfo]
    simp only [bind, Except.bind, htext]
    rfl
  unfold shouldRotate
  rw [hflag]
  exact ⟨_, rfl⟩

lemma callRC2_of_checkVRFInfos_error {m₁ : WorkingSealerManagerImpl} {e : RotateError}
    (hrotate : (manager tx).shouldRotate ctx s = .ok (m₁, true)) (hfail : m₁.checkVRFInfos ctx s = .error e) :
    ∃ s', callRC2 ctx s tx = some s' ∧ ∀ k, s'.rows k = s.rows k := by
  have hthrow : rotateWorkingSealer ctx tx s =
      (.error e, setSystemConfigByKey .notifyRotate (.number 1) (ctx.number + 1) s) := by
    unfold WorkingSealerManagerPrecompiled.rotateWorkingSealer WorkingSealerManagerImpl.rotateWorkingSealer
    rw [hrotate]
    dsimp only
    rw [hfail]
  have hdefined := checkVRFInfos_ne_undefined hfail
  unfold callRC2
  rw [hthrow]
  split
  case isTrue => exact ⟨_, rfl, (restores_rollback .refl).rows_eq⟩
  case isFalse =>
    have hrows := (restores_rollback (.single (@setSystemConfigByKey_write s .notifyRotate (.number 1)
      (ctx.number + 1)))).rows_eq
    cases e <;> first | exact absurd rfl hdefined | exact ⟨_, rfl, hrows⟩

/-- After a block whose only rotation fails its checks the flag reads "1" in the next block, and every call there
rotates, if and only if the flag read "1" for it before the block. -/
theorem notify_next_leader_iff {before after : List OtherTx} {t : TableFactory}
    {m₁ : WorkingSealerManagerImpl} {e : RotateError}
    (hbefore : run (executeTransaction ctx) (some s) (before.map .other) = some t)
    (hrotate : (manager tx).shouldRotate ctx t = .ok (m₁, true))
    (hfail : m₁.checkVRFInfos ctx t = .error e) :
    ∃ s', run (executeTransaction ctx) (some s)
        (before.map .other ++ .rotate tx :: after.map .other) = some s' ∧
      ((notifyRotateText (ctx.number + 1) s'.commit = some (.number 1) ∧
        ∀ (next : ExecutiveContext) (nextTx : RotateTx), next.number = ctx.number + 1 →
          ∃ m', (manager nextTx).shouldRotate next s'.commit = .ok (m', true)) ↔
        notifyRotateText (ctx.number + 1) s = some (.number 1)) := by
  obtain ⟨t', ht', htext⟩ := @run_other ctx before s (ctx.number + 1)
  obtain rfl : t = t' := Option.some.inj (hbefore.symm.trans ht')
  obtain ⟨u, hu, hrows⟩ := callRC2_of_checkVRFInfos_error hrotate hfail
  obtain ⟨s', hs', htext'⟩ := @run_other ctx after u (ctx.number + 1)
  refine ⟨s', ?_, ?_⟩
  · rw [run_append, hbefore]
    change run (executeTransaction ctx) (callRC2 ctx t tx) (after.map .other) = some s'
    rw [hu, hs']
  have hcommit : notifyRotateText (ctx.number + 1) s'.commit = notifyRotateText (ctx.number + 1) s := by
    have hrows : notifyRotateText (ctx.number + 1) u = notifyRotateText (ctx.number + 1) t := by
      unfold notifyRotateText TableFactory.configRows
      rw [hrows]
    rw [← htext, ← hrows, ← htext']
    unfold notifyRotateText TableFactory.configRows
    rw [rows_commit]
  rw [hcommit]
  refine ⟨fun h => h.1, fun h => ⟨h, fun next nextTx hnumber => ?_⟩⟩
  apply shouldRotate_of_notifyRotateText
  rw [hnumber, hcommit]
  exact h

def forgedTx : RotateTx :=
  { trialTx 1 0 with vrfInput := 8 }

theorem notify_next_leader_again : ∃ s', run (executeTransaction trialContext)
      (some (trialTables 2 1 [1, 2] [3, 4])) [.rotate forgedTx] = some s' ∧
    notifyRotateText 11 s'.commit = some (.number 1) := by
  obtain ⟨m₁, hrotate⟩ : ∃ m₁, (manager forgedTx).shouldRotate trialContext
      (trialTables 2 1 [1, 2] [3, 4]) = .ok (m₁, true) :=
    ⟨_, rfl⟩
  have hfail : m₁.checkVRFInfos trialContext (trialTables 2 1 [1, 2] [3, 4]) = .error .invalidVRFInput := by
    cases hrotate
    rfl
  obtain ⟨s', hrun, hiff⟩ := @notify_next_leader_iff trialContext _ forgedTx [] [] _ m₁ _ rfl hrotate hfail
  exact ⟨s', hrun, (hiff.mpr rfl).1⟩

/-- A forged proof is turned away and the flag is rolled back with it: it still reads "0". -/
theorem not_notify_next_leader : ∃ m₁ s',
    (manager forgedTx).shouldRotate trialContext (trialTables 2 0 [1, 2] [3, 4]) = .ok (m₁, true) ∧
    m₁.checkVRFInfos trialContext (trialTables 2 0 [1, 2] [3, 4]) = .error .invalidVRFInput ∧
    run (executeTransaction trialContext) (some (trialTables 2 0 [1, 2] [3, 4])) [.rotate forgedTx] = some s' ∧
    notifyRotateText 11 s'.commit ≠ some (.number 1) := by
  refine ⟨_, _, rfl, rfl, rfl, ?_⟩
  decide

end FiscoBcos
