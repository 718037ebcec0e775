import FiscoBcos.Storage.OpenTable

/-!
# Tables created and rolled back

After a rollback the rows of `_sys_tables_` are those of the savepoint, but `name2Table` keeps the tables that have been
opened since.
-/

namespace FiscoBcos

open List Option MemoryTable2 Std.ExtTreeMap Machine TableCall OrderedMap

namespace MemoryTableFactory2

variable {f : MemoryTableFactory2} {name : Str}

def infoOf (f : MemoryTableFactory2) (name : Str) : Option TableInfo :=
  f.name2Table[name]?.map info

lemma infoOf_isSome : (f.infoOf name).isSome ↔ name ∈ f.name2Table := by
  rw [infoOf, isSome_map, mem_iff_isSome_getElem?]

lemma infoOf_undoLast (name : Str) : f.undoLast.infoOf name = f.infoOf name := by
  unfold undoLast
  split
  · rfl
  case h_2 changed change rest hlog =>
    unfold infoOf
    rw [Std.ExtTreeMap.getElem?_modify]
    split
    case isTrue h =>
      cases Std.LawfulEqCmp.compare_eq_iff_eq.mp h
      rw [Option.map_map]
      congr 1
      funext t
      exact info_rollback change
    case isFalse => rfl

lemma infoOf_rollback (n : Nat) (name : Str) : (f.rollback n).infoOf name = f.infoOf name := by
  unfold rollback
  generalize f.changeLog.length - n = m
  induction m generalizing f with
  | zero => rfl
  | succ m ih => rw [Function.iterate_succ_apply, ih, infoOf_undoLast]

lemma mem_rollback (n : Nat) : name ∈ (f.rollback n).name2Table ↔ name ∈ f.name2Table := by
  rw [← infoOf_isSome, infoOf_rollback, infoOf_isSome]

end MemoryTableFactory2

lemma TableCall.info_apply {db : StateStorage} {t t' : MemoryTable2} {c : TableCall} {change : Change}
    (h : c.apply db t = .ok (t', change)) : t'.info = t.info := by
  cases c with
  | insert =>
    simp only [apply, MemoryTable2.insert] at h
    repeat' split at h
    all_goals cases h
    rfl
  | update =>
    simp only [apply, MemoryTable2.update] at h
    repeat' split at h
    all_goals cases h
    exact MemoryTable2.info_changeRows
  | remove =>
    simp only [apply, MemoryTable2.remove] at h
    split at h
    all_goals cases h
    exact MemoryTable2.info_changeRows

namespace MemoryTableFactory2

variable {db : StateStorage} {blockNum : Int} {f f₀ f₁ f₂ : MemoryTableFactory2} {name : Str}

lemma infoOf_call (c : Str × TableCall) (name : Str) : (f.call db c).infoOf name = f.infoOf name := by
  rcases call_cases db f c with hcall | ⟨t, t', change, ht, happly, hcall⟩
  · rw [hcall]
  rw [hcall]
  unfold infoOf
  by_cases hname : c.1 = name
  · subst hname
    rw [getElem?_insert_self, ht, map_some, map_some, info_apply happly]
  · rw [getElem?_insert_of_ne hname]

def Named (name : Str) (info : TableInfo) : Prop :=
  info.name = name ∧ (name ∈ sysTables → info.key = (getSysTableInfo name).key)

def Sane (f : MemoryTableFactory2) : Prop :=
  ∀ name, ∀ info ∈ f.infoOf name, Named name info

lemma sane_of_infoOf (h : f.Sane) (hinfo : ∀ name, f₁.infoOf name = f.infoOf name) : f₁.Sane :=
  fun name info hmem => h name info (hinfo name ▸ hmem)

structure Extends (names : List Str) (f f' : MemoryTableFactory2) : Prop where
  log : f'.changeLog = f.changeLog
  kept : ∀ (name : Str) t, f.name2Table[name]? = some t → f'.name2Table[name]? = some t
  opened : ∀ (name : Str) t, f.name2Table[name]? = none → f'.name2Table[name]? = some t →
    name ∈ names ∧ t = .opened t.info ∧ Named name t.info

namespace Extends

variable {names : List Str}

lemma refl (f : MemoryTableFactory2) : Extends names f f where
  log := rfl
  kept _ _ h := h
  opened _ _ h h' := absurd (h.symm.trans h') (by simp)

section

variable (h : Extends names f f₁)

include h

lemma trans (h' : Extends names f₁ f₂) : Extends names f f₂ where
  log := h'.log.trans h.log
  kept name t ht := h'.kept name t (h.kept name t ht)
  opened name t hnone ht := by
    cases h1 : f₁.name2Table[name]? with
    | none => exact h'.opened name t h1 ht
    | some t₁ =>
      cases (h'.kept name t₁ h1).symm.trans ht
      exact h.opened name _ hnone h1

lemma mono {names' : List Str} (hsub : names ⊆ names') : Extends names' f f₁ where
  log := h.log
  kept := h.kept
  opened name t hnone ht := by
    obtain ⟨hname, hopened⟩ := h.opened name t hnone ht
    exact ⟨hsub hname, hopened⟩

lemma sane (hsane : f.Sane) : f₁.Sane := by
  intro name info hinfo
  obtain ⟨t, ht, rfl⟩ := map_eq_some_iff.mp hinfo
  cases h0 : f.name2Table[name]? with
  | none => exact (h.opened name t h0 ht).2.2
  | some t₀ =>
    cases (h.kept name t₀ h0).symm.trans ht
    apply hsane name
    rw [infoOf, h0]
    rfl

lemma getElem?_eq_none (hnone : f.name2Table[name]? = none) (hname : name ∉ names) : f₁.name2Table[name]? = none := by
  cases h1 : f₁.name2Table[name]? with
  | none => rfl
  | some t => exact absurd (h.opened name t hnone h1).1 hname

lemma restored {tables : Set Str} : Restored db tables f f₁ where
  kept name _ t ht := ⟨t, h.kept name t ht, .refl t⟩
  opened name _ t hnone ht := by
    have hopened := (h.opened name t hnone ht).2.1
    rw [← hopened]
    exact .refl t
  log := h.log

end

end Extends

section

variable {info : TableInfo} {authorityFlag : Bool}

lemma getElem?_addTable (info : TableInfo) (name : Str) : (f.addTable info).2.name2Table[name]? =
    if info.name = name ∧ f.name2Table[name]? = none then some (.opened info) else f.name2Table[name]? := by
  unfold addTable
  rw [getElem?_insertIfNew]
  by_cases hname : info.name = name
  · subst hname
    cases h : f.name2Table[info.name]? with
    | none => simp [mem_iff_isSome_getElem?, h]
    | some => simp [mem_iff_isSome_getElem?, h]
  · simp [hname]

lemma extends_addTable (hinfo : Named name info) : Extends [name] f (f.addTable info).2 where
  log := rfl
  kept k t ht := by rw [getElem?_addTable, if_neg (by simp [ht]), ht]
  opened k t hnone ht := by
    rw [getElem?_addTable] at ht
    split at ht
    case isTrue hk =>
      cases ht
      have hname : k = name := hk.1.symm.trans hinfo.1
      exact ⟨mem_singleton.mpr hname, rfl, hname ▸ hinfo⟩
    case isFalse => exact absurd (hnone.symm.trans ht) (by simp)

lemma name_ite {p : Prop} [Decidable p] {info' : TableInfo} (h : info.name = name)
    (h' : info'.name = name) : (if p then info else info').name = name := by
  rw [apply_ite TableInfo.name, h, h', ite_self]

lemma name_getSysTableInfo (name : Str) : (getSysTableInfo name).name = name := by
  unfold getSysTableInfo
  repeat apply name_ite rfl
  rfl

lemma named_getSysTableInfo : Named name (getSysTableInfo name) :=
  ⟨name_getSysTableInfo name, fun _ => rfl⟩

lemma Named.withFields (h : Named name info) (addresses : List Str) :
    Named name { info.withFields with authorizedAddress := addresses } :=
  h

variable (db blockNum)

lemma openAccessTable_cases :
    (∃ t, f.name2Table[SYS_ACCESS_TABLE]? = some t ∧ f.openAccessTable db blockNum authorityFlag = (.table t, f)) ∨
      f.openAccessTable db blockNum authorityFlag = (.exception, f) ∨
      ∃ addresses, f.name2Table[SYS_ACCESS_TABLE]? = none ∧ f.openAccessTable db blockNum authorityFlag =
        f.addTable { (getSysTableInfo SYS_ACCESS_TABLE).withFields with authorizedAddress := addresses } := by
  unfold openAccessTable
  split
  case h_1 t ht => exact .inl ⟨t, ht, rfl⟩
  case h_2 hnone =>
    dsimp only
    split
    · split
      · exact .inr (.inr ⟨_, hnone, rfl⟩)
      · exact .inr (.inl rfl)
    · exact .inr (.inr ⟨[], hnone, rfl⟩)

lemma extends_openAccessTable (f : MemoryTableFactory2) (authorityFlag : Bool) :
    Extends [SYS_ACCESS_TABLE] f (f.openAccessTable db blockNum authorityFlag).2 := by
  rcases openAccessTable_cases db blockNum with ⟨t, -, h⟩ | h | ⟨addresses, -, h⟩
  · rw [h]
    exact .refl f
  · rw [h]
    exact .refl f
  · rw [h]
    exact extends_addTable (named_getSysTableInfo.withFields addresses)

lemma openWith_cases (f : MemoryTableFactory2) (info : TableInfo) (authorityFlag : Bool) :
    ∃ f', Extends [SYS_ACCESS_TABLE] f f' ∧ (f.openWith db blockNum info authorityFlag = (.exception, f') ∨
        ∃ addresses, f.openWith db blockNum info authorityFlag =
          f'.addTable { info.withFields with authorizedAddress := addresses }) := by
  have haccess := extends_openAccessTable db blockNum f true
  unfold openWith
  dsimp only
  split
  case isTrue =>
    split
    case h_1 access f' heq =>
      rw [heq] at haccess
      refine ⟨f', haccess, ?_⟩
      split
      case h_1 addresses _ => exact .inr ⟨addresses, rfl⟩
      case h_2 => exact .inl rfl
    case h_2 f' _ heq =>
      rw [heq] at haccess
      exact ⟨f', haccess, .inl rfl⟩
  case isFalse => exact ⟨f, .refl f, .inr ⟨info.authorizedAddress, rfl⟩⟩

variable {db blockNum}

lemma extends_openWith (hinfo : Named name info) :
    Extends [SYS_ACCESS_TABLE, name] f (f.openWith db blockNum info authorityFlag).2 := by
  obtain ⟨f', hf', h | ⟨addresses, h⟩⟩ := openWith_cases db blockNum f info authorityFlag
  · rw [h]
    exact hf'.mono (subset_append_left _ [name])
  · rw [h]
    exact (hf'.mono (subset_append_left _ [name])).trans
      ((extends_addTable (hinfo.withFields addresses)).mono (subset_cons_self _ _))

lemma openWith_table {t : MemoryTable2} (hnone : f.name2Table[info.name]? = none)
    (hname : info.name ≠ SYS_ACCESS_TABLE) (h : (f.openWith db blockNum info authorityFlag).1 = .table t) :
    (∃ addresses, t = .opened { info.withFields with authorizedAddress := addresses }) ∧
      (f.openWith db blockNum info authorityFlag).2.name2Table[info.name]? = some t := by
  obtain ⟨f', hf', hopen | ⟨addresses, hopen⟩⟩ := openWith_cases db blockNum f info authorityFlag
  · rw [hopen] at h
    cases h
  rw [hopen] at h ⊢
  cases h
  refine ⟨⟨addresses, rfl⟩, ?_⟩
  rw [getElem?_addTable, if_pos ⟨rfl, hf'.getElem?_eq_none hnone (mem_singleton.not.mpr hname)⟩]

lemma openWith_isNull : (f.openWith db blockNum info authorityFlag).1.isNull = false := by
  obtain ⟨f', -, h | ⟨addresses, h⟩⟩ := openWith_cases db blockNum f info authorityFlag
  · rw [h]
    rfl
  · rw [h]
    rfl

lemma openSysTable_isNull : (f.openSysTable db blockNum name authorityFlag).1.isNull = false := by
  unfold openSysTable
  split
  · rfl
  split
  · rcases openAccessTable_cases db blockNum with ⟨t, -, h⟩ | h | ⟨addresses, -, h⟩
    all_goals rw [h]; rfl
  · exact openWith_isNull

lemma tables_mem_sysTables : SYS_TABLES ∈ sysTables := by decide

lemma access_mem_sysTables : SYS_ACCESS_TABLE ∈ sysTables := by decide

lemma extends_openSysTable (db : StateStorage) (blockNum : Int) (f : MemoryTableFactory2) (authorityFlag : Bool)
    (hname : name ∈ sysTables) : Extends sysTables f (f.openSysTable db blockNum name authorityFlag).2 := by
  have haccess := access_mem_sysTables
  unfold openSysTable
  split
  · exact .refl f
  split
  · exact (extends_openAccessTable db blockNum f authorityFlag).mono (cons_subset.mpr ⟨haccess, nil_subset _⟩)
  · exact (extends_openWith named_getSysTableInfo).mono
      (cons_subset.mpr ⟨haccess, cons_subset.mpr ⟨hname, nil_subset _⟩⟩)

lemma openSysTable_table {t : MemoryTable2} (h : (f.openSysTable db blockNum name authorityFlag).1 = .table t) :
    (f.openSysTable db blockNum name authorityFlag).2.name2Table[name]? = some t := by
  unfold openSysTable at h ⊢
  split at h
  case h_1 t' ht =>
    cases h
    rw [ht]
  case h_2 hnone =>
    split at h
    case isTrue hname =>
      subst hname
      rcases openAccessTable_cases db blockNum with ⟨t', ht', -⟩ | hopen | ⟨addresses, -, hopen⟩
      · exact absurd (hnone.symm.trans ht') (by simp)
      · rw [hopen] at h
        cases h
      · rw [hopen] at h
        cases h
        rw [if_pos rfl, hopen, getElem?_addTable]
        exact if_pos ⟨rfl, hnone⟩
    case isFalse hname =>
      rw [if_neg hname]
      have hinfo := name_getSysTableInfo name
      have hkept := (openWith_table (by rwa [hinfo]) (by rwa [hinfo]) h).2
      rwa [hinfo] at hkept

lemma named_registeredInfo (hname : name ∉ sysTables) (entry : Selected) : Named name (registeredInfo name entry) :=
  ⟨rfl, fun hmem => absurd hmem hname⟩

lemma extends_openTable {db : StateStorage} {blockNum : Int} :
    Extends (name :: sysTables) f (f.openTable db blockNum name authorityFlag).2 := by
  have hsub : sysTables ⊆ name :: sysTables := subset_cons_self name sysTables
  unfold openTable
  split
  · exact .refl f
  split
  case isTrue hname => exact (extends_openSysTable db blockNum f authorityFlag hname).mono hsub
  case isFalse hname =>
    have hsys := (extends_openSysTable db blockNum f true tables_mem_sysTables).mono hsub
    split
    case h_1 sysTable f' heq =>
      rw [heq] at hsys
      split
      · exact hsys
      · apply hsys.trans
        exact (extends_openWith (named_registeredInfo hname _)).mono (cons_subset.mpr
          ⟨hsub access_mem_sysTables, cons_subset.mpr ⟨mem_cons_self, nil_subset _⟩⟩)
    case h_2 f' _ heq =>
      rw [heq] at hsys
      exact hsys

end

def sysTable (f : MemoryTableFactory2) (name : Str) : MemoryTable2 :=
  f.name2Table.getD name (.opened (getSysTableInfo name).withFields)

/-- The numbers and addresses in the rows of `_sys_table_access_` that `openTable` reads on its way to `_sys_tables_`
can be read. -/
def Readable (db : StateStorage) (blockNum : Int) (f : MemoryTableFactory2) : Prop :=
  ∀ key ∈ [SYS_TABLES, SYS_ACCESS_TABLE],
    authorizedAddresses blockNum ((f.sysTable SYS_ACCESS_TABLE).select db key {}) ≠ none

def Registered (db : StateStorage) (f : MemoryTableFactory2) (name : Str) : Prop :=
  (f.sysTable SYS_TABLES).select db name {} ≠ []

lemma sysTable_of_some {t : MemoryTable2} (h : f.name2Table[name]? = some t) : f.sysTable name = t := by
  rw [sysTable, getD_eq_getD_getElem?, h, getD_some]

lemma sysTable_of_none (h : f.name2Table[name]? = none) :
    f.sysTable name = .opened (getSysTableInfo name).withFields := by
  rw [sysTable, getD_eq_getD_getElem?, h, getD_none]

lemma select_opened_congr {info info' : TableInfo} (hname : info.name = info'.name)
    (hkey : info.key = info'.key) (key : Str) (condition : Condition) :
    (opened info).select db key condition = (opened info').select db key condition := by
  unfold select matching StateStorage.select
  simp only [opened, hname, hkey]
  rfl

section

variable (hread : f.Readable db blockNum)

include hread

lemma openAccessTable_readable : ∃ t f', f.openAccessTable db blockNum true = (.table t, f') ∧
      ∀ key condition, t.select db key condition = (f.sysTable SYS_ACCESS_TABLE).select db key condition := by
  unfold openAccessTable
  cases h : f.name2Table[SYS_ACCESS_TABLE]? with
  | some t => exact ⟨t, f, rfl, fun key condition => by rw [sysTable_of_some h]⟩
  | none =>
    have hown := hread SYS_ACCESS_TABLE (by simp)
    rw [sysTable_of_none h] at hown ⊢
    obtain ⟨addresses, haddresses⟩ := ne_none_iff_exists'.mp hown
    rw [if_pos rfl, haddresses]
    exact ⟨_, _, rfl, select_opened_congr rfl rfl⟩

lemma openSysTable_readable : ∃ t f', f.openSysTable db blockNum SYS_TABLES true = (.table t, f') ∧
      ∀ key condition, t.select db key condition = (f.sysTable SYS_TABLES).select db key condition := by
  unfold openSysTable
  cases h : f.name2Table[SYS_TABLES]? with
  | some t => exact ⟨t, f, rfl, fun key condition => by rw [sysTable_of_some h]⟩
  | none =>
    obtain ⟨access, f', haccess, hselect⟩ := openAccessTable_readable hread
    have hrows := hread SYS_TABLES (by simp)
    rw [← hselect] at hrows
    obtain ⟨addresses, haddresses⟩ := ne_none_iff_exists'.mp hrows
    rw [if_neg (by decide), sysTable_of_none h]
    unfold openWith
    rw [if_pos rfl, haccess]
    dsimp only
    have hname : (getSysTableInfo SYS_TABLES).withFields.name = SYS_TABLES := rfl
    rw [hname, haddresses]
    exact ⟨_, _, rfl, select_opened_congr rfl rfl⟩

lemma openTable_isNull_iff (authorityFlag : Bool) : (f.openTable db blockNum name authorityFlag).1.isNull ↔
      name ∉ f.name2Table ∧ name ∉ sysTables ∧ ¬f.Registered db name := by
  unfold openTable
  cases h : f.name2Table[name]? with
  | some => simp [mem_iff_isSome_getElem?, h, Opened.isNull]
  | none =>
    have hmem : name ∉ f.name2Table := by
      rw [mem_iff_isSome_getElem?, h]
      simp
    by_cases hname : name ∈ sysTables
    · simp [hname, openSysTable_isNull]
    obtain ⟨t, f', hsys, hselect⟩ := openSysTable_readable hread
    simp only [hname, if_false, hsys, hmem, not_false_eq_true, true_and, Registered, not_not, ← hselect]
    cases hrows : t.select db name {} with
    | nil => simp [Opened.isNull]
    | cons => simp [openWith_isNull]

end

def consulted : Set Str :=
  { name | name = SYS_TABLES ∨ name = SYS_ACCESS_TABLE }

/-- An operation is a sequence of openings and calls, which write only known fields of the tables `tables`. -/
inductive Move (db : StateStorage) (tables : Set Str) : MemoryTableFactory2 → MemoryTableFactory2 → Prop where
  | opening {names : List Str} {f f' : MemoryTableFactory2} (h : Extends names f f') : Move db tables f f'
  | calling {f : MemoryTableFactory2} (c : Str × TableCall) (h : c.1 ∈ tables → f.WritesKnown db c) :
    Move db tables f (f.call db c)

def KeepsFields (db : StateStorage) (f : MemoryTableFactory2) : FactoryOp → Prop
  | .call c => c.1 = SYS_TABLES ∨ c.1 = SYS_ACCESS_TABLE → f.WritesKnown db c
  | _ => True

instance (db : StateStorage) (f : MemoryTableFactory2) (op : FactoryOp) : Decidable (f.KeepsFields db op) :=
  match op with
  | .openTable .. => isTrue trivial
  | .createTable .. => isTrue trivial
  | .call c => inferInstanceAs (Decidable (c.1 = SYS_TABLES ∨ c.1 = SYS_ACCESS_TABLE → f.WritesKnown db c))

variable {authorityFlag : Bool} {origin : Str}

section

open Relation (ReflTransGen)

variable {tables : Set Str}

lemma moves_createTable {keyField valueField : Str} :
    ReflTransGen (Move db tables) f (f.createTable db blockNum name keyField valueField authorityFlag origin).2 := by
  have hopen : Move db tables f (f.openTable db blockNum SYS_TABLES authorityFlag).2 :=
    .opening extends_openTable
  unfold createTable
  split
  case h_1 sysTable f' heq =>
    rw [heq] at hopen
    split
    · dsimp only
      split
      · apply ReflTransGen.tail _ (.opening extends_openTable)
        exact (ReflTransGen.single hopen).tail (.calling _ fun _ t _ => trivial)
      · exact .single hopen
    · exact .single hopen
  case h_2 f' _ heq =>
    rw [heq] at hopen
    exact .single hopen

lemma moves_step {op : FactoryOp} (h : ∀ c, op = .call c → c.1 ∈ tables → f.WritesKnown db c) :
    ReflTransGen (Move db tables) f (step db blockNum f op) := by
  cases op with
  | openTable => exact .single (.opening extends_openTable)
  | createTable =>
    exact moves_createTable
  | call c => exact .single (.calling c (h c rfl))

lemma moves_run {ops : List FactoryOp} (hops : Along (step db blockNum) (KeepsFields db) f ops) :
    ReflTransGen (Move db consulted) f (run (step db blockNum) f ops) := by
  apply invariant_run (fun f' => ReflTransGen (Move db consulted) f f') _ .refl hops
  intro f' op hop h
  apply h.trans (moves_step _)
  rintro c rfl
  exact hop

lemma Restored.of_move (hmove : Move db tables f₀ f₁) (h : Restored db tables f₁ f) :
    Restored db tables f₀ (f.rollback f₀.savepoint) := by
  cases hmove with
  | opening hext =>
    rw [rollback_of_log (h.log.trans hext.log)]
    exact hext.restored.trans h
  | calling c hw => exact Restored.of_call hw h

lemma savepoint_le_move (hmove : Move db tables f f₁) : f.savepoint ≤ f₁.savepoint := by
  cases hmove with
  | opening hext => rw [savepoint, savepoint, hext.log]
  | calling => exact savepoint_le_call

lemma savepoint_le_moves (hmoves : ReflTransGen (Move db tables) f f₁) : f.savepoint ≤ f₁.savepoint := by
  induction hmoves with
  | refl => exact le_refl _
  | tail _ hmove ih => exact ih.trans (savepoint_le_move hmove)

lemma Restored.of_moves (hmoves : ReflTransGen (Move db tables) f₀ f₁) (h : Restored db tables f₁ f) :
    Restored db tables f₀ (f.rollback f₀.savepoint) := by
  induction hmoves generalizing f with
  | refl => rwa [rollback_of_log h.log]
  | tail hmoves hmove ih =>
    have hrest := ih (.of_move hmove h)
    rwa [rollback_rollback (savepoint_le_moves hmoves)] at hrest

lemma sane_move (hmove : Move db tables f f₁) (h : f.Sane) : f₁.Sane := by
  cases hmove with
  | opening hext => exact hext.sane h
  | calling c => exact sane_of_infoOf h (infoOf_call c)

lemma mem_of_move (hmove : Move db tables f f₁) (h : name ∈ f.name2Table) : name ∈ f₁.name2Table := by
  cases hmove with
  | opening hext =>
    rw [mem_iff_isSome_getElem?, isSome_iff_exists] at h ⊢
    obtain ⟨t, ht⟩ := h
    exact ⟨t, hext.kept name t ht⟩
  | calling =>
    rw [← infoOf_isSome] at h ⊢
    rwa [infoOf_call]

lemma Restored.select_sysTable (h : Restored db consulted f₀ f) (hsane : f.Sane) (hname : name ∈ consulted)
    (hsys : name ∈ sysTables) (key : Str) (condition : Condition) :
    (f.sysTable name).select db key condition = (f₀.sysTable name).select db key condition := by
  cases h0 : f₀.name2Table[name]? with
  | some t₀ =>
    obtain ⟨t, ht, hrest⟩ := h.kept name hname t₀ h0
    rw [sysTable_of_some ht, sysTable_of_some h0, hrest.select_eq]
  | none =>
    cases ht : f.name2Table[name]? with
    | none => rw [sysTable_of_none h0, sysTable_of_none ht]
    | some t =>
      obtain ⟨hinfo, hkey⟩ := hsane name t.info (by rw [infoOf, ht]; rfl)
      rw [sysTable_of_some ht, sysTable_of_none h0, (h.opened name hname t h0 ht).select_eq]
      exact select_opened_congr (hinfo.trans (name_getSysTableInfo name).symm) (hkey hsys) key condition

end

section

/-- A table can be opened after the rollback if it could be before, unless it was left open. -/
theorem Restored.isNull_openTable (h : Restored db consulted f₀ f) (hsane : f.Sane) (hread : f₀.Readable db blockNum)
    (hkept : name ∈ f₀.name2Table → name ∈ f.name2Table)
    (hopened : name ∈ f.name2Table → name ∈ f₀.name2Table ∨ name ∈ sysTables ∨ f₀.Registered db name)
    (authorityFlag : Bool) : (f.openTable db blockNum name authorityFlag).1.isNull =
      (f₀.openTable db blockNum name authorityFlag).1.isNull := by
  have htables := h.select_sysTable hsane (.inl rfl) tables_mem_sysTables
  have haccess := h.select_sysTable hsane (.inr rfl) access_mem_sysTables
  have hread' : f.Readable db blockNum := by
    intro key hkey
    rw [haccess]
    exact hread key hkey
  have hregistered : f.Registered db name ↔ f₀.Registered db name := by
    unfold Registered
    rw [htables]
  rw [Bool.eq_iff_iff, openTable_isNull_iff hread', openTable_isNull_iff hread, hregistered]
  tauto

lemma matching_addNew (t : MemoryTable2) (key : Str) (row : Row) (condition : Condition) :
    (t.addNew key row).matching db key condition = t.matching db key condition ++
      ([(row, (t.newRows key).length)].filterMap (fromNew condition)) := by
  have hnew : (t.addNew key row).newRows key = t.newRows key ++ [row] := by
    simp [addNew, newRows]
  unfold matching
  rw [hnew, zipIdx_append, filterMap_append, ← append_assoc, zero_add]
  rfl

variable {t : MemoryTable2} {keyField valueField : Str} {row : Row}

lemma select_addNew {key : Str} (h : t.select db key {} = []) (hrow : (({} : Condition).EQ t.info.key key).process row)
    : (t.addNew key row).select db key {} = [{ toRow := row, tempIndex := (t.newRows key).length }] := by
  have hempty : t.matching db key (({} : Condition).EQ t.info.key key) = [] := h
  change (t.addNew key row).matching db key (({} : Condition).EQ t.info.key key) = _
  rw [matching_addNew, hempty, nil_append]
  simp [fromNew, hrow]

lemma openTable_of_mem_sysTables (hname : name ∈ sysTables) (authorityFlag : Bool) :
    f.openTable db blockNum name authorityFlag = f.openSysTable db blockNum name authorityFlag := by
  unfold openTable openSysTable
  cases f.name2Table[name]? with
  | some => rfl
  | none => simp only [hname, if_true]

lemma getElem?_registration :
    let fields := (registration name keyField valueField).insert (getSysTableInfo SYS_TABLES).key name
    fields["key_field".toList]? = some keyField ∧ fields["value_field".toList]? = some valueField := by
  have hkey : (getSysTableInfo SYS_TABLES).key = "table_name".toList := by decide
  have h1 : ¬compare "table_name".toList "key_field".toList = .eq := by decide
  have h2 : ¬compare "value_field".toList "key_field".toList = .eq := by decide
  have h3 : ¬compare "table_name".toList "value_field".toList = .eq := by decide
  intro fields
  constructor
  · simp only [fields, registration, hkey, Std.ExtTreeMap.getElem?_insert, if_neg h1, if_neg h2,
      Std.ReflCmp.compare_self, if_true]
  · simp only [fields, registration, hkey, Std.ExtTreeMap.getElem?_insert, if_neg h3, Std.ReflCmp.compare_self, if_true]

lemma registeredInfo_registration (index : Nat)
    (hrow : row.fields = (registration name keyField valueField).insert (getSysTableInfo SYS_TABLES).key name) :
    registeredInfo name { toRow := row, tempIndex := index } =
      { name := name, key := keyField, fields := valueField.splitOn ',' } := by
  obtain ⟨hkey, hvalue⟩ := getElem?_registration
  rw [← hrow] at hkey hvalue
  simp only [registeredInfo, Row.getField, getD_eq_getD_getElem?, hkey, hvalue, getD_some]

lemma info_openTable_registered {sysTable t₁ : MemoryTable2}
    {options : AccessOptions} {change : Change} (hname : name ∉ sysTables)
    (hnone : f.name2Table[name]? = none) (hsys : f.name2Table[SYS_TABLES]? = some sysTable)
    (hkey : sysTable.info.key = (getSysTableInfo SYS_TABLES).key) (hrows : sysTable.select db name {} = [])
    (hinsert : (insert name (registration name keyField valueField) options).apply db sysTable = .ok (t₁, change))
    (h : ((f.call db (SYS_TABLES, .insert name (registration name keyField valueField) options)).openTable db
      blockNum name authorityFlag).1 = .table t) :
    t.info.key = keyField ∧ t.info.fields = valueField.splitOn ',' ++ [STATUS, keyField, NUM_FIELD, ID_FIELD] := by
  have hne : SYS_TABLES ≠ name := fun heq => hname (heq ▸ tables_mem_sysTables)
  have hrow : t₁ = sysTable.addNew name
      { fields := (registration name keyField valueField).insert sysTable.info.key name } := by
    simp only [apply, MemoryTable2.insert] at hinsert
    repeat' split at hinsert
    all_goals cases hinsert
    rfl
  have hfound : t₁.select db name {} = [{
      fields := (registration name keyField valueField).insert sysTable.info.key name
      tempIndex := (sysTable.newRows name).length }] := by
    rw [hrow]
    apply select_addNew hrows
    rw [Condition.process_EQ _ getElem?_insert_self (by simp)]
    rfl
  rw [call_of_apply hsys hinsert] at h
  unfold openTable openSysTable at h
  rw [getElem?_insert_of_ne hne, hnone, getElem?_insert_self] at h
  simp only [hname, if_false, hfound] at h
  rw [hkey, registeredInfo_registration _ rfl] at h
  obtain ⟨⟨addresses, rfl⟩, -⟩ := openWith_table ((getElem?_insert_of_ne hne).trans hnone)
    (fun heq : name = SYS_ACCESS_TABLE => hname (heq ▸ access_mem_sysTables)) h
  exact ⟨rfl, rfl⟩

lemma info_createTable (hsane : f.Sane) (hname : name ∉ sysTables) (hopen : name ∈ f.name2Table → f.Registered db name)
    (h : (f.createTable db blockNum name keyField valueField authorityFlag origin).1 = .table t) :
    t.info.key = keyField ∧ t.info.fields = valueField.splitOn ',' ++ [STATUS, keyField, NUM_FIELD, ID_FIELD] := by
  have hext := extends_openSysTable db blockNum f authorityFlag tables_mem_sysTables
  unfold createTable at h
  rw [openTable_of_mem_sysTables tables_mem_sysTables] at h
  split at h
  case h_2 => cases h
  case h_1 sysTable f' heq =>
    have hfst : (f.openSysTable db blockNum SYS_TABLES authorityFlag).1 = .table sysTable := by rw [heq]
    have hkept := openSysTable_table hfst
    rw [heq] at hext hkept
    have hsane' := hext.sane hsane
    split at h
    case h_2 => cases h
    case h_1 hrows =>
      -- the table has no row, so it is not open
      have hnone : f.name2Table[name]? = none := by
        rw [eq_none_iff_forall_ne_some]
        intro t' ht'
        apply hopen (by rw [mem_iff_isSome_getElem?, ht']; rfl)
        have hrest : Restored db consulted f f' := hext.restored
        rw [← hrest.select_sysTable hsane' (.inl rfl) tables_mem_sysTables, sysTable_of_some hkept, hrows]
      have hinfo := hsane' SYS_TABLES sysTable.info (by rw [infoOf, hkept]; rfl)
      dsimp only at h
      split at h
      case h_2 => cases h
      case h_1 hinsert =>
        exact info_openTable_registered hname (hext.getElem?_eq_none hnone hname) hkept
          (hinfo.2 tables_mem_sysTables) hrows hinsert h

end

/-- The states that operations and rollbacks lead to. -/
inductive Reachable (db : StateStorage) (blockNum : Int) : MemoryTableFactory2 → Prop where
  | empty : Reachable db blockNum {}
  | step {f : MemoryTableFactory2} (h : Reachable db blockNum f) (op : FactoryOp) :
    Reachable db blockNum (step db blockNum f op)
  | rollback {f : MemoryTableFactory2} (h : Reachable db blockNum f) (savepoint : Nat) :
    Reachable db blockNum (f.rollback savepoint)

lemma sane_step (op : FactoryOp) (h : f.Sane) : (step db blockNum f op).Sane := by
  have hmoves : Relation.ReflTransGen (Move db ∅) f (step db blockNum f op) := moves_step fun _ _ hmem => hmem.elim
  exact invariant_of_small Sane (fun _ _ => sane_move) hmoves h

lemma Reachable.sane (h : Reachable db blockNum f) : f.Sane := by
  induction h with
  | empty =>
    intro name info hinfo
    simp [infoOf] at hinfo
  | step h op ih => exact sane_step op ih
  | rollback h savepoint ih => exact sane_of_infoOf ih (infoOf_rollback savepoint)

/-- After a rollback a name finds no table exactly where it found none at the savepoint, if its table has not been
opened since without being registered at the savepoint. And `createTable` gives the schema it is asked for, if the table
is not a system table and is not open without being registered. -/
theorem openTable_rollback (db : StateStorage) (blockNum : Int) (f : MemoryTableFactory2)
    (hf : Reachable db blockNum f) (hread : f.Readable db blockNum) (ops : List FactoryOp)
    (hops : Along (step db blockNum) (KeepsFields db) f ops) (name : Str) :
    let before := run (step db blockNum) f ops
    let after := before.rollback f.savepoint
    ((name ∈ before.name2Table → name ∈ f.name2Table ∨ name ∈ sysTables ∨ f.Registered db name) →
      ∀ authorityFlag, (after.openTable db blockNum name authorityFlag).1.isNull =
        (f.openTable db blockNum name authorityFlag).1.isNull) ∧
    ∀ later keyField valueField authorityFlag origin t, let last := run (step db blockNum) after later
      name ∉ sysTables → (name ∈ last.name2Table → last.Registered db name) →
      (last.createTable db blockNum name keyField valueField authorityFlag origin).1 = .table t →
      t.info.key = keyField ∧ t.info.fields = valueField.splitOn ',' ++ [STATUS, keyField, NUM_FIELD, ID_FIELD] := by
  intro before after
  have hmoves : Relation.ReflTransGen (Move db consulted) f before := moves_run hops
  have hrest : Restored db consulted f after := .of_moves hmoves (.refl before)
  have hbefore : before.Sane := invariant_of_small Sane (fun _ _ => sane_move) hmoves hf.sane
  have hafter : after.Sane := sane_of_infoOf hbefore (infoOf_rollback _)
  constructor
  · intro hopened authorityFlag
    apply hrest.isNull_openTable hafter hread
    · rw [mem_rollback]
      exact invariant_of_small (fun f => name ∈ f.name2Table) (fun _ _ => mem_of_move) hmoves
    · rwa [mem_rollback]
  · intro later keyField valueField authorityFlag origin t last hname hregistered hcreate
    have hlast : last.Sane := run_induction Sane (fun _ op => sane_step op) hafter later
    exact info_createTable hlast hname hregistered hcreate

instance (f : MemoryTableFactory2) : Decidable (f.Readable db blockNum) :=
  inferInstanceAs (Decidable (∀ key ∈ [SYS_TABLES, SYS_ACCESS_TABLE],
    authorizedAddresses blockNum ((f.sysTable SYS_ACCESS_TABLE).select db key {}) ≠ none))

instance (f : MemoryTableFactory2) (name : Str) : Decidable (f.Registered db name) :=
  inferInstanceAs (Decidable ((f.sysTable SYS_TABLES).select db name {} ≠ []))

def registeredT : StateStorage :=
  rowUnder SYS_TABLES "t".toList (registration "t".toList "k".toList "v".toList)

theorem openTable_rollback_sample :
    let ops : List FactoryOp := [.openTable "t".toList true, .call ("t".toList, .insert "1".toList ∅ {})]
    let before := run (step registeredT 1) {} ops
    Along (step registeredT 1) (KeepsFields registeredT) {} ops ∧ "t".toList ∈ before.name2Table ∧
      ∀ authorityFlag, ((before.rollback 0).openTable registeredT 1 "t".toList authorityFlag).1.isNull =
        (openTable registeredT 1 {} "t".toList authorityFlag).1.isNull := by
  intro ops before
  have hops : Along (step registeredT 1) (KeepsFields registeredT) {} ops := by decide +kernel
  have hread : Readable registeredT 1 {} := by decide +kernel
  have hregistered : Registered registeredT {} "t".toList := by decide +kernel
  refine ⟨hops, by decide +kernel, ?_⟩
  exact (openTable_rollback registeredT 1 {} .empty hread ops hops "t".toList).1 fun _ => .inr (.inr hregistered)

/-- The table `u` is created and rolled back: it can be opened still, and when it is created with another key field it
keeps the first one. A system table that is created keeps the key field of its kind. -/
theorem not_openTable_rollback :
    let f : MemoryTableFactory2 := {}
    let before := f.step registeredT 1 (.createTable "u".toList "k".toList "v".toList false [])
    let after := before.rollback f.savepoint
    (f.openTable registeredT 1 "u".toList true).1.isNull = true ∧
      (after.openTable registeredT 1 "u".toList true).1.isNull = false ∧
      (after.createTable registeredT 1 "u".toList "x".toList "y".toList false []).1.key = some "k".toList ∧
      (after.createTable registeredT 1 SYS_CNS "x".toList "y".toList false []).1.key = some "name".toList := by
  decide +kernel

end MemoryTableFactory2

end FiscoBcos
