/-
# What storing a suite leaves

`_insert_suite_items` of `app/elaborations/api/test_suites_api.py` under the requests that
store a whole suite, and what `_execute` of
`app/elaborations/services/test_suites/test_suite_executor_thread.py` then loads.

Every row is given an id that has not been drawn before, so the rows of a suite are those
of its last request, one for each item that is stored, and the rows of an item's commands
are its own.  Of the hooks of one phase only the first is stored; a hook among the tests is
stored too, and a run that finds two hooks of a phase does not start.
-/

import QualityFlow.Py.Lists
import QualityFlow.Suite.Keys

namespace QualityFlow
namespace Suite

open Py Command Constants

/-! ### Ids that have not been drawn -/

theorem newId_ne (db : Database) {m : ℕ} (n : ℕ) (h : m + 1 ≤ n) : db.newId m ≠ db.newId n := by
  intro heq
  have hn := db.newId_injective heq
  omega

/-- No row has an id that is still to be drawn. -/
structure Store.Drawn (db : Database) (store : Store) : Prop where
  suites : ∀ suite ∈ store.suites, ∀ n, store.drawn ≤ n → suite.id ≠ db.newId n
  items : ∀ item ∈ store.items, ∀ n, store.drawn ≤ n → item.id ≠ db.newId n
  owners : ∀ item ∈ store.items, ∀ n, store.drawn ≤ n → item.testSuiteId ≠ db.newId n
  operations : ∀ op ∈ store.operations, ∀ n, store.drawn ≤ n → op.suiteItemId ≠ db.newId n

namespace Store.Drawn

variable {db : Database} {store store' : Store}

theorem empty (db : Database) : Store.empty.Drawn db := by
  constructor <;> simp [Store.empty]

/-- Fewer rows, or rows under the same ids, are as fresh. -/
theorem mono (h : store.Drawn db) (hdrawn : store.drawn ≤ store'.drawn)
    (hsuites : ∀ suite' ∈ store'.suites, ∃ suite ∈ store.suites, suite.id = suite'.id)
    (hitems : ∀ item' ∈ store'.items, ∃ item ∈ store.items,
      item.id = item'.id ∧ item.testSuiteId = item'.testSuiteId)
    (hoperations : ∀ op ∈ store'.operations, op ∈ store.operations) : store'.Drawn db := by
  constructor
  · intro suite' hsuite' n hn
    obtain ⟨suite, hsuite, hid⟩ := hsuites suite' hsuite'
    rw [← hid]
    exact h.suites suite hsuite n (hdrawn.trans hn)
  · intro item' hitem' n hn
    obtain ⟨item, hitem, hid, -⟩ := hitems item' hitem'
    rw [← hid]
    exact h.items item hitem n (hdrawn.trans hn)
  · intro item' hitem' n hn
    obtain ⟨item, hitem, -, hsuite⟩ := hitems item' hitem'
    rw [← hsuite]
    exact h.owners item hitem n (hdrawn.trans hn)
  · intro op hop n hn
    exact h.operations op (hoperations op hop) n (hdrawn.trans hn)

/-- The commands of an item are stored under its id. -/
theorem withOperations (h : store.Drawn db) {itemId : String}
    (hitem : ∀ n, store.drawn ≤ n → itemId ≠ db.newId n)
    (commands : List CreateSuiteItemCommandDto) : (store.withOperations db itemId commands).Drawn db := by
  have hle : store.drawn ≤ (store.withOperations db itemId commands).drawn := Nat.le_add_right _ _
  refine ⟨fun suite hsuite n hn => h.suites suite hsuite n (hle.trans hn),
    fun item hmem n hn => h.items item hmem n (hle.trans hn),
    fun item hmem n hn => h.owners item hmem n (hle.trans hn), fun op hop n hn => ?_⟩
  rcases List.mem_append.1 hop with hop | hop
  · exact h.operations op hop n (hle.trans hn)
  · obtain ⟨i, hi, rfl⟩ := List.mem_mapIdx.1 hop
    exact hitem n (hle.trans hn)

theorem insertOperations (h : store.Drawn db) {itemId : String}
    (hitem : ∀ n, store.drawn ≤ n → itemId ≠ db.newId n)
    {commands : List CreateSuiteItemCommandDto}
    (hinsert : insertSuiteItemOperations db itemId commands store = .ok store') :
    store'.Drawn db := by
  rw [insertSuiteItemOperations_eq] at hinsert
  split at hinsert
  · rw [← Except.ok.inj hinsert]
    exact h.withOperations hitem commands
  · simp at hinsert

end Store.Drawn

/-! ### The rows of an item -/

/-- An item that is stored with its position, and the rows of its commands. -/
structure StoredAs (db : Database) (store : Store) (suiteId : String)
    (dto : CreateSuiteItemDto × ℤ) (item : SuiteItemEntity) : Prop where
  row : item = buildSuiteItemEntity item.id suiteId dto.1 dto.2
  operations : ∃ drawn, store.operations.filter (fun op => op.suiteItemId = item.id)
    = operationRows db item.id drawn dto.1.commands
  configured : ∀ command ∈ dto.1.commands, command.cfg.isSome

/-- What the insert of one item leaves. -/
theorem insertSuiteItem_eq {db : Database} {suiteId : String} {dto : CreateSuiteItemDto}
    {position : ℤ} {commands : List CreateSuiteItemCommandDto} {store store' : Store}
    (h : insertSuiteItem db suiteId dto position commands store = .ok store') :
    (∀ command ∈ commands, command.cfg.isSome) ∧
      store' = { store with
        items := store.items ++ [buildSuiteItemEntity (db.newId store.drawn) suiteId dto position]
        operations := store.operations ++
          operationRows db (db.newId store.drawn) (store.drawn + 1) commands
        drawn := store.drawn + 1 + commands.length } := by
  rw [insertSuiteItem, insertSuiteItemOperations_eq] at h
  split at h
  · rename_i hall
    exact ⟨hall, (Except.ok.inj h).symm⟩
  · simp at h

theorem Store.Drawn.insertItem {db : Database} {suiteId : String} {dto : CreateSuiteItemDto}
    {position : ℤ} {commands : List CreateSuiteItemCommandDto} {store store' : Store}
    (h : store.Drawn db) (hsuite : ∀ n, store.drawn ≤ n → suiteId ≠ db.newId n)
    (hinsert : insertSuiteItem db suiteId dto position commands store = .ok store') :
    store'.Drawn db := by
  have hready : Store.Drawn db { store with
      items := store.items ++ [buildSuiteItemEntity (db.newId store.drawn) suiteId dto position]
      drawn := store.drawn + 1 } := by
    refine ⟨fun suite hmem n hn => ?_, fun item hmem n hn => ?_, fun item hmem n hn => ?_,
      fun op hop n hn => ?_⟩
    · exact h.suites suite hmem n (Nat.le_of_succ_le hn)
    · rcases List.mem_append.1 hmem with hmem | hmem
      · exact h.items item hmem n (Nat.le_of_succ_le hn)
      · obtain rfl := List.mem_singleton.1 hmem
        intro heq
        have hn' := db.newId_injective heq
        simp only at hn
        omega
    · rcases List.mem_append.1 hmem with hmem | hmem
      · exact h.owners item hmem n (Nat.le_of_succ_le hn)
      · obtain rfl := List.mem_singleton.1 hmem
        exact hsuite n (Nat.le_of_succ_le hn)
    · exact h.operations op hop n (Nat.le_of_succ_le hn)
  refine hready.insertOperations (fun n hn heq => ?_) hinsert
  have hn' := db.newId_injective heq
  simp only at hn
  omega

/-- **Items that are stored one after another have each its row, and its commands theirs.** -/
theorem rows_of_foldlM {db : Database} {suiteId : String}
    {dtos : List (CreateSuiteItemDto × ℤ)} {store store' : Store} (hdrawn : store.Drawn db)
    (hsuite : ∀ n, store.drawn ≤ n → suiteId ≠ db.newId n)
    (h : dtos.foldlM (fun store item => insertSuiteItem db suiteId item.1 item.2 item.1.commands
      store) store = .ok store') :
    store'.Drawn db ∧ store.drawn ≤ store'.drawn ∧ store'.suites = store.suites ∧
      ∃ rows ops, store'.items = store.items ++ rows ∧ store'.operations = store.operations ++ ops ∧
        (∀ op ∈ ops, ∃ n, store.drawn ≤ n ∧ op.suiteItemId = db.newId n) ∧
        List.Forall₂ (StoredAs db store' suiteId) dtos rows := by
  induction dtos generalizing store with
  | nil =>
    obtain rfl := Except.ok.inj h
    exact ⟨hdrawn, le_rfl, rfl, [], [], by simp, by simp, by simp, .nil⟩
  | cons dto dtos ih =>
    obtain ⟨store₁, hfirst, hrest⟩ := foldlM_cons_eq_ok.1 h
    have hdrawn₁ := hdrawn.insertItem hsuite hfirst
    obtain ⟨hconfigured, hstore₁⟩ := insertSuiteItem_eq hfirst
    have hnext : store.drawn < store₁.drawn := by
      rw [hstore₁]
      simp only
      omega
    obtain ⟨hdrawn', hle, hsuites, rows, ops, hitems, hops, hfresh, hrows⟩ :=
      ih hdrawn₁ (fun n hn => hsuite n (hnext.le.trans hn)) hrest
    set row := buildSuiteItemEntity (db.newId store.drawn) suiteId dto.1 dto.2 with hrow
    set own := operationRows db (db.newId store.drawn) (store.drawn + 1) dto.1.commands with hown
    have hitems₁ : store₁.items = store.items ++ [row] := by rw [hstore₁]
    have hops₁ : store₁.operations = store.operations ++ own := by rw [hstore₁]
    refine ⟨hdrawn', hnext.le.trans hle, ?_, row :: rows, own ++ ops, ?_, ?_, ?_, .cons ?_ hrows⟩
    · rw [hsuites, hstore₁]
    · rw [hitems, hitems₁, List.append_assoc, List.singleton_append]
    · rw [hops, hops₁, List.append_assoc]
    · intro op hop
      rcases List.mem_append.1 hop with hop | hop
      · obtain ⟨i, hi, rfl⟩ := List.mem_mapIdx.1 hop
        exact ⟨store.drawn, le_rfl, rfl⟩
      · obtain ⟨n, hn, hid⟩ := hfresh op hop
        exact ⟨n, hnext.le.trans hn, hid⟩
    · refine ⟨rfl, ⟨store.drawn + 1, ?_⟩, hconfigured⟩
      have hold : store.operations.filter (fun op => op.suiteItemId = row.id) = [] := by
        rw [List.filter_eq_nil_iff]
        intro op hop
        have hne := hdrawn.operations op hop store.drawn le_rfl
        simpa [hrow, buildSuiteItemEntity] using hne
      have hnew : own.filter (fun op => op.suiteItemId = row.id) = own := by
        rw [List.filter_eq_self]
        intro op hop
        obtain ⟨i, hi, rfl⟩ := List.mem_mapIdx.1 hop
        simp [operationRow, hrow, buildSuiteItemEntity]
      have hlater : ops.filter (fun op => op.suiteItemId = row.id) = [] := by
        rw [List.filter_eq_nil_iff]
        intro op hop
        obtain ⟨n, hn, hid⟩ := hfresh op hop
        have hne : db.newId n ≠ db.newId store.drawn := fun heq => by
          have hn' := db.newId_injective heq
          omega
        simpa [hid, hrow, buildSuiteItemEntity] using hne
      rw [hops, hops₁, List.filter_append, List.filter_append, hold, hnew, hlater]
      simp [hown, hrow, buildSuiteItemEntity]

/-! ### Requests -/

theorem rebuild_rows {db : Database} {suiteId : String} {store store' : Store}
    (h : rebuildSuiteConstantDefinitions db suiteId store = .ok store') :
    store'.suites = store.suites ∧ store'.items = store.items ∧
      store'.operations = store.operations ∧ store'.drawn = store.drawn := by
  obtain ⟨plan, -, h⟩ := bind_eq_ok.1 h
  unfold persistDefinitionEntities at h
  split at h
  · rw [← Except.ok.inj h]
    exact ⟨rfl, rfl, rfl, rfl⟩
  · simp at h

theorem Store.Drawn.rebuild {db : Database} {suiteId : String} {store store' : Store}
    (h : store.Drawn db) (hrebuild : rebuildSuiteConstantDefinitions db suiteId store = .ok store') :
    store'.Drawn db := by
  obtain ⟨hsuites, hitems, hoperations, hdrawn⟩ := rebuild_rows hrebuild
  refine h.mono hdrawn.ge ?_ ?_ ?_
  · rw [hsuites]
    exact fun suite hmem => ⟨suite, hmem, rfl⟩
  · rw [hitems]
    exact fun item hmem => ⟨item, hmem, rfl, rfl⟩
  · rw [hoperations]
    exact fun op hop => hop

theorem Store.Drawn.suite_ne {db : Database} {suiteId : String} {store : Store}
    {suite : TestSuiteEntity} (h : store.Drawn db) (hsuite : getSuite store suiteId = .ok suite) :
    ∀ n, store.drawn ≤ n → suiteId ≠ db.newId n := by
  unfold getSuite at hsuite
  cases hfind : store.suites.find? fun suite => suite.id = suiteId with
  | none => simp [hfind] at hsuite
  | some found =>
    have hid : found.id = suiteId := by simpa using List.find?_some hfind
    rw [← hid]
    exact h.suites found (List.mem_of_find?_eq_some hfind)

theorem Store.Drawn.item_ne {db : Database} {suiteId itemId : String} {store : Store}
    {item : SuiteItemEntity} (h : store.Drawn db) (hitem : getItem store suiteId itemId = .ok item) :
    ∀ n, store.drawn ≤ n → itemId ≠ db.newId n := by
  rw [getItem] at hitem
  cases hfind : store.items.find? fun item => item.id = itemId ∧ item.testSuiteId = suiteId with
  | none =>
    rw [hfind] at hitem
    simp at hitem
  | some found =>
    have hid : found.id = itemId ∧ found.testSuiteId = suiteId := by
      simpa using List.find?_some hfind
    rw [← hid.1]
    exact h.items found (List.mem_of_find?_eq_some hfind)

/-- The row of a new suite. -/
theorem Store.Drawn.drawSuite {db : Database} {store : Store} (h : store.Drawn db)
    (description : String) : Store.Drawn db { store with
      suites := store.suites ++ [{ id := db.newId store.drawn, description }]
      drawn := store.drawn + 1 } := by
  refine ⟨fun suite hmem n hn => ?_, fun item hmem n hn => h.items item hmem n (Nat.le_of_succ_le hn),
    fun item hmem n hn => h.owners item hmem n (Nat.le_of_succ_le hn),
    fun op hop n hn => h.operations op hop n (Nat.le_of_succ_le hn)⟩
  rcases List.mem_append.1 hmem with hmem | hmem
  · exact h.suites suite hmem n (Nat.le_of_succ_le hn)
  · obtain rfl := List.mem_singleton.1 hmem
    exact newId_ne db n hn

/-- The store without the items of a suite, whose row has a new description. -/
def Store.clearSuite (store : Store) (suiteId description : String) : Store :=
  let suites := store.suites.map fun suite =>
    if suite.id = suiteId then { suite with description } else suite
  deleteBySuiteId suiteId { store with suites }

theorem Store.Drawn.clearSuite {db : Database} {store : Store} (h : store.Drawn db)
    (suiteId description : String) : (store.clearSuite suiteId description).Drawn db := by
  refine h.mono le_rfl ?_ (fun item hmem => ⟨item, List.mem_of_mem_filter hmem, rfl, rfl⟩)
    fun op hop => List.mem_of_mem_filter hop
  intro suite' hsuite'
  obtain ⟨suite, hsuite, rfl⟩ := List.mem_map.1 hsuite'
  refine ⟨suite, hsuite, ?_⟩
  split <;> rfl

/-- What a request has stored when it comes to the rebuild. -/
theorem Store.Drawn.edit {db : Database} {store : Store} {request : Request}
    {edited : Store × Option String} (h : store.Drawn db)
    (hedit : request.edit db store = .ok edited) : edited.1.Drawn db := by
  cases request with
  | insertSuite dto =>
    obtain ⟨⟨⟩, -, hedit⟩ := bind_eq_ok.1 hedit
    obtain ⟨store', hinsert, hret⟩ := bind_eq_ok.1 hedit
    rw [← Except.ok.inj hret]
    exact (rows_of_foldlM (h.drawSuite dto.description) (newId_ne db) hinsert).1
  | updateSuite suiteId dto =>
    obtain ⟨⟨⟩, -, hedit⟩ := bind_eq_ok.1 hedit
    obtain ⟨suite, hsuite, hedit⟩ := bind_eq_ok.1 hedit
    obtain ⟨store', hinsert, hret⟩ := bind_eq_ok.1 hedit
    rw [← Except.ok.inj hret]
    exact (rows_of_foldlM (h.clearSuite suiteId dto.description) (h.suite_ne hsuite) hinsert).1
  | addTest suiteId dto =>
    obtain ⟨commands, -, hedit⟩ := bind_eq_ok.1 hedit
    obtain ⟨suite, hsuite, hedit⟩ := bind_eq_ok.1 hedit
    obtain ⟨store', hinsert, hret⟩ := bind_eq_ok.1 hedit
    rw [← Except.ok.inj hret]
    exact h.insertItem (h.suite_ne hsuite) hinsert
  | updateTest suiteId itemId dto =>
    obtain ⟨commands, -, hedit⟩ := bind_eq_ok.1 hedit
    obtain ⟨item, hitem, hedit⟩ := bind_eq_ok.1 hedit
    obtain ⟨store', hinsert, hret⟩ := bind_eq_ok.1 hedit
    rw [← Except.ok.inj hret]
    have hcleared : Store.Drawn db (deleteBySuiteItemId itemId { store with
        items := store.items.map fun item =>
          if item.id = itemId then updateSuiteItemEntity dto item else item }) := by
      refine h.mono le_rfl (fun suite hmem => ⟨suite, hmem, rfl⟩) ?_
        fun op hop => List.mem_of_mem_filter hop
      intro item' hitem'
      obtain ⟨item₀, hitem₀, rfl⟩ := List.mem_map.1 hitem'
      refine ⟨item₀, hitem₀, ?_⟩
      split <;> exact ⟨rfl, rfl⟩
    exact hcleared.insertOperations (h.item_ne hitem) hinsert
  | convertTest suiteId itemId =>
    obtain ⟨existing, hitem, hedit⟩ := bind_eq_ok.1 hedit
    split at hedit
    · rw [← Except.ok.inj hedit]
      exact h
    · obtain ⟨commands, -, hedit⟩ := bind_eq_ok.1 hedit
      obtain ⟨store', hinsert, hret⟩ := bind_eq_ok.1 hedit
      rw [← Except.ok.inj hret]
      have hdeleted : (deleteBySuiteItemId itemId store).Drawn db :=
        h.mono le_rfl (fun suite hmem => ⟨suite, hmem, rfl⟩) (fun item hmem => ⟨item, hmem, rfl, rfl⟩)
          fun op hop => List.mem_of_mem_filter hop
      have hstored := hdeleted.insertOperations (h.item_ne hitem) hinsert
      refine hstored.mono le_rfl (fun suite hmem => ⟨suite, hmem, rfl⟩) ?_ fun op hop => hop
      intro item' hitem'
      obtain ⟨item₀, hitem₀, rfl⟩ := List.mem_map.1 hitem'
      refine ⟨item₀, hitem₀, ?_⟩
      split <;> exact ⟨rfl, rfl⟩

/-- **No run of requests draws an id that a row has.** -/
theorem Store.Drawn.run {db : Database} {store : Store} (h : store.Drawn db)
    (requests : List Request) : (store.run db requests).Drawn db := by
  induction requests generalizing store with
  | nil => exact h
  | cons request requests ih =>
    refine ih ?_
    unfold Store.after
    split
    · rename_i store' happly
      rw [Request.apply_eq] at happly
      obtain ⟨⟨edited, suiteId?⟩, hedit, hrest⟩ := bind_eq_ok.1 happly
      have hedited := h.edit hedit
      cases suiteId? with
      | none =>
        obtain rfl := Except.ok.inj hrest
        exact hedited
      | some suiteId => exact hedited.rebuild hrest
    · exact h

/-! ### The rows of a suite -/

/-- The suite that a request stores as a whole. -/
def Request.suite? (db : Database) (store : Store) : Request → Option (String × CreateTestSuiteDto)
  | .insertSuite dto => some (db.newId store.drawn, dto)
  | .updateSuite suiteId dto => some (suiteId, dto)
  | .addTest _ _ | .updateTest _ _ _ | .convertTest _ _ => none

theorem getSuite_isOk {store : Store} {suiteId : String} :
    (∃ suite, getSuite store suiteId = .ok suite) ↔ ∃ suite ∈ store.suites, suite.id = suiteId := by
  unfold getSuite
  cases hfind : store.suites.find? fun suite => suite.id = suiteId with
  | none =>
    have hnone : ∀ suite ∈ store.suites, suite.id ≠ suiteId := by simpa using hfind
    simpa using hnone
  | some suite =>
    have hid : suite.id = suiteId := by simpa using List.find?_some hfind
    exact iff_of_true ⟨suite, rfl⟩ ⟨suite, List.mem_of_find?_eq_some hfind, hid⟩

theorem StoredAs.of_operations {db : Database} {store store' : Store} {suiteId : String}
    {dto : CreateSuiteItemDto × ℤ} {item : SuiteItemEntity} (h : StoredAs db store suiteId dto item)
    (hsame : store'.operations = store.operations) : StoredAs db store' suiteId dto item :=
  ⟨h.row, by rw [hsame]; exact h.operations, h.configured⟩

/-- The rows of a suite once its items have been stored where it had none. -/
theorem storedRows_of_insert {db : Database} {suiteId : String} {dto : CreateTestSuiteDto}
    {store store₁ store' : Store} (hdrawn : store.Drawn db)
    (hsuite : ∀ n, store.drawn ≤ n → suiteId ≠ db.newId n)
    (hnone : ∀ item ∈ store.items, item.testSuiteId ≠ suiteId)
    (hinsert : insertSuiteItems db suiteId dto store = .ok store₁)
    (hrebuild : rebuildSuiteConstantDefinitions db suiteId store₁ = .ok store') :
    store'.suites = store.suites ∧ List.Forall₂ (StoredAs db store' suiteId) (storedItems dto)
      (store'.items.filter fun item => item.testSuiteId = suiteId) := by
  obtain ⟨-, -, hsuites, rows, ops, hitems, -, -, hrows⟩ := rows_of_foldlM hdrawn hsuite hinsert
  obtain ⟨hsuites', hitems', hoperations, -⟩ := rebuild_rows hrebuild
  have hown : ∀ row ∈ rows, row.testSuiteId = suiteId := by
    intro row hrow
    obtain ⟨d, -, hstored⟩ := exists_left_of_forall₂ hrows hrow
    rw [hstored.row]
    rfl
  have hfilter : store'.items.filter (fun item => item.testSuiteId = suiteId) = rows := by
    rw [hitems', hitems, List.filter_append, List.filter_eq_nil_iff.2 (by simpa using hnone),
      List.filter_eq_self.2 (by simpa using hown), List.nil_append]
  rw [hfilter]
  exact ⟨hsuites'.trans hsuites, hrows.imp fun _ _ h => h.of_operations hoperations⟩

/-- **A request that stores a suite leaves one row for each item that is stored, with the
rows of its commands, and no other row of the suite.** -/
theorem storedRows_of_apply {db : Database} {suiteId : String} {dto : CreateTestSuiteDto}
    {store store' : Store} {request : Request} (hdrawn : store.Drawn db)
    (hsuite : request.suite? db store = some (suiteId, dto))
    (happly : request.apply db store = .ok store') :
    validateSuiteConstantGraph db.commandId dto = .ok () ∧
      (∃ suite, getSuite store' suiteId = .ok suite) ∧
      List.Forall₂ (StoredAs db store' suiteId) (storedItems dto)
        (store'.items.filter fun item => item.testSuiteId = suiteId) := by
  cases request with
  | insertSuite dto' =>
    obtain ⟨rfl, rfl⟩ : db.newId store.drawn = suiteId ∧ dto' = dto := by
      simpa [Request.suite?] using hsuite
    obtain ⟨⟨⟩, hvalid, happly⟩ := bind_eq_ok.1 happly
    obtain ⟨store₁, hinsert, hrebuild⟩ := bind_eq_ok.1 happly
    obtain ⟨hsuites, hrows⟩ := storedRows_of_insert (hdrawn.drawSuite dto'.description)
      (newId_ne db) (fun item hitem => hdrawn.owners item hitem _ le_rfl) hinsert hrebuild
    refine ⟨hvalid, getSuite_isOk.2 ?_, hrows⟩
    rw [hsuites]
    exact ⟨_, List.mem_append_right _ (List.mem_singleton_self _), rfl⟩
  | updateSuite suiteId' dto' =>
    obtain ⟨rfl, rfl⟩ : suiteId' = suiteId ∧ dto' = dto := by
      simpa [Request.suite?] using hsuite
    obtain ⟨⟨⟩, hvalid, happly⟩ := bind_eq_ok.1 happly
    obtain ⟨suite, hfound, happly⟩ := bind_eq_ok.1 happly
    obtain ⟨store₁, hinsert, hrebuild⟩ := bind_eq_ok.1 happly
    obtain ⟨hsuites, hrows⟩ := storedRows_of_insert (hdrawn.clearSuite suiteId' dto'.description)
      (hdrawn.suite_ne hfound) (fun item hitem => by simpa using (List.mem_filter.1 hitem).2)
      hinsert hrebuild
    refine ⟨hvalid, getSuite_isOk.2 ?_, hrows⟩
    obtain ⟨suite, hmem, hid⟩ := getSuite_isOk.1 ⟨suite, hfound⟩
    rw [hsuites]
    refine ⟨_, List.mem_map_of_mem hmem, ?_⟩
    rw [if_pos hid]
    exact hid
  | addTest _ _ => simp [Request.suite?] at hsuite
  | updateTest _ _ _ => simp [Request.suite?] at hsuite
  | convertTest _ _ => simp [Request.suite?] at hsuite

/-! ### What a run loads -/

namespace CreateTestSuiteDto

variable (dto : CreateTestSuiteDto)

/-- The items that are stored. -/
def stored : List CreateSuiteItemDto := (storedItems dto).map Prod.fst

/-- The hooks of a phase that are stored. -/
def storedHooks (phase : HookPhase) : List CreateSuiteItemDto :=
  dto.stored.filter fun item => item.hookPhase = some phase

/-- A run of the suite starts: no two hooks of a phase are stored. -/
def Loadable : Prop := ∀ phase, (dto.storedHooks phase).length ≤ 1

/-- The hook of a phase that a run goes through. -/
def runHook (phase : HookPhase) : Option CreateSuiteItemDto := (dto.storedHooks phase).head?

/-- The tests that a run goes through. -/
def runTests : List CreateSuiteItemDto := dto.stored.filter fun item => item.kind = .test

/-- The items that a run goes through. -/
def executed : List CreateSuiteItemDto :=
  (dto.runHook .beforeAll).toList ++
    (dto.runTests.flatMap fun test =>
      (dto.runHook .beforeEach).toList ++ test :: (dto.runHook .afterEach).toList) ++
    (dto.runHook .afterAll).toList

end CreateTestSuiteDto

/-- The row of an item, with the rows of its commands. -/
def Stores (db : Database) (store : Store) (suiteId : String) (dto : CreateSuiteItemDto)
    (item : SuiteItemEntity) : Prop :=
  ∃ position, StoredAs db store suiteId (dto, position) item

theorem Stores.kind {db : Database} {store : Store} {suiteId : String} {dto : CreateSuiteItemDto}
    {item : SuiteItemEntity} (h : Stores db store suiteId dto item) :
    item.kind = dto.kind ∧ item.hookPhase = dto.hookPhase ∧ item.sourcesJson = dto.sourceDicts := by
  obtain ⟨position, hstored⟩ := h
  rw [hstored.row]
  exact ⟨rfl, rfl, rfl⟩

section

variable {db : Database} {store : Store} {suiteId : String} {dto : CreateTestSuiteDto}

/-- The rows of the hooks of a phase. -/
theorem forall₂_storedHooks
    (h : List.Forall₂ (StoredAs db store suiteId) (storedItems dto)
      (store.items.filter fun item => item.testSuiteId = suiteId)) (phase : HookPhase) :
    List.Forall₂ (Stores db store suiteId) (dto.storedHooks phase)
      (store.items.filter fun item =>
        item.testSuiteId = suiteId ∧ item.kind = .hook ∧ item.hookPhase = some phase) := by
  have hstored : List.Forall₂ (Stores db store suiteId) dto.stored
      (store.items.filter fun item => item.testSuiteId = suiteId) := by
    rw [CreateTestSuiteDto.stored, List.forall₂_map_left_iff]
    exact h.imp fun d _ hd => ⟨d.2, hd⟩
  have hfilter : (store.items.filter fun item =>
      item.testSuiteId = suiteId ∧ item.kind = .hook ∧ item.hookPhase = some phase)
        = (store.items.filter fun item => item.testSuiteId = suiteId).filter fun item =>
          item.kind = .hook ∧ item.hookPhase = some phase := by
    rw [List.filter_filter]
    refine List.filter_congr fun item _ => ?_
    simp only [Bool.decide_and]
    exact Bool.and_comm _ _
  rw [hfilter]
  refine List.rel_filter (fun d item hitem => ?_) hstored
  obtain ⟨hkind, hphase, -⟩ := hitem.kind
  have hhook := d.hookPhase_isSome
  simp only [decide_eq_true_eq, hkind, hphase]
  constructor
  · intro hd
    exact ⟨hhook.1 (by simp [hd]), hd⟩
  · exact fun hd => hd.2

/-- **A hook is loaded where no two of its phase are stored, and it is the row of the one that
is.** -/
theorem getHookByPhase_eq_ok
    (h : List.Forall₂ (StoredAs db store suiteId) (storedItems dto)
      (store.items.filter fun item => item.testSuiteId = suiteId)) (phase : HookPhase) :
    ((dto.storedHooks phase).length ≤ 1 →
        ∃ hook, getHookByPhase store suiteId phase = .ok hook) ∧
      ∀ hook, getHookByPhase store suiteId phase = .ok hook →
        (dto.storedHooks phase).length ≤ 1 ∧
          Option.Rel (Stores db store suiteId) (dto.runHook phase) hook := by
  have hrows := forall₂_storedHooks h phase
  rw [CreateTestSuiteDto.runHook, getHookByPhase]
  revert hrows
  generalize dto.storedHooks phase = dtos
  generalize (store.items.filter fun item =>
    item.testSuiteId = suiteId ∧ item.kind = .hook ∧ item.hookPhase = some phase) = rows
  intro hrows
  match dtos, rows, hrows with
  | [], [], .nil => exact ⟨fun _ => ⟨none, rfl⟩, fun hook hok => by
      obtain rfl := Except.ok.inj hok
      exact ⟨by simp, .none⟩⟩
  | [d], [row], .cons hd .nil => exact ⟨fun _ => ⟨some row, rfl⟩, fun hook hok => by
      obtain rfl := Except.ok.inj hok
      exact ⟨by simp, .some hd⟩⟩
  | _ :: _ :: _, _ :: _ :: _, .cons _ (.cons _ _) =>
    exact ⟨fun hle => by simp at hle, fun hook hok => by simp at hok⟩

/-- The tests that a run may go through. -/
theorem mem_getAllTestsBySuiteId
    (h : List.Forall₂ (StoredAs db store suiteId) (storedItems dto)
      (store.items.filter fun item => item.testSuiteId = suiteId)) :
    (∀ row ∈ getAllTestsBySuiteId db store suiteId,
        ∃ test ∈ dto.runTests, Stores db store suiteId test row) ∧
      ∀ test ∈ dto.runTests, ∃ row ∈ getAllTestsBySuiteId db store suiteId,
        Stores db store suiteId test row := by
  have hmem (row : SuiteItemEntity) : row ∈ getAllTestsBySuiteId db store suiteId
      ↔ row ∈ store.items.filter (fun item => item.testSuiteId = suiteId) ∧ row.kind = .test := by
    rw [getAllTestsBySuiteId, List.mem_filter, getAllBySuiteId, (db.orderItems_perm _).mem_iff]
    simp
  constructor
  · intro row hrow
    obtain ⟨hstored, hkind⟩ := (hmem row).1 hrow
    obtain ⟨d, hd, has⟩ := exists_left_of_forall₂ h hstored
    have hstores : Stores db store suiteId d.1 row := ⟨d.2, has⟩
    refine ⟨d.1, List.mem_filter.2 ⟨List.mem_map_of_mem hd, ?_⟩, hstores⟩
    simpa [hstores.kind.1] using hkind
  · intro test htest
    obtain ⟨hstored, hkind⟩ := List.mem_filter.1 htest
    obtain ⟨d, hd, rfl⟩ := List.mem_map.1 hstored
    obtain ⟨row, hrow, has⟩ := exists_right_of_forall₂ h hd
    have hstores : Stores db store suiteId d.1 row := ⟨d.2, has⟩
    refine ⟨row, (hmem row).2 ⟨hrow, ?_⟩, hstores⟩
    simpa [hstores.kind.1] using hkind

/-- What a run of a stored suite has loaded. -/
structure LoadedAs (db : Database) (store : Store) (suiteId : String) (dto : CreateTestSuiteDto)
    (suite : LoadedSuite) : Prop where
  loadable : dto.Loadable
  beforeAll : Option.Rel (Stores db store suiteId) (dto.runHook .beforeAll) suite.beforeAll
  beforeEach : Option.Rel (Stores db store suiteId) (dto.runHook .beforeEach) suite.beforeEach
  afterEach : Option.Rel (Stores db store suiteId) (dto.runHook .afterEach) suite.afterEach
  afterAll : Option.Rel (Stores db store suiteId) (dto.runHook .afterAll) suite.afterAll
  tests : ∀ row ∈ suite.tests, ∃ test ∈ dto.runTests, Stores db store suiteId test row

theorem mem_of_resolveTestsToExecute {tests chosen : List SuiteItemEntity} {target : String}
    (h : resolveTestsToExecute tests target = .ok chosen) : ∀ row ∈ chosen, row ∈ tests := by
  unfold resolveTestsToExecute at h
  split at h
  · obtain rfl := Except.ok.inj h
    exact fun row hrow => hrow
  · split at h
    · rename_i test hfind
      obtain rfl := Except.ok.inj h
      simpa using List.mem_of_find?_eq_some hfind
    · simp at h

theorem loadedAs_of_loadSuite
    (h : List.Forall₂ (StoredAs db store suiteId) (storedItems dto)
      (store.items.filter fun item => item.testSuiteId = suiteId)) {target : String}
    {suite : LoadedSuite} (hload : loadSuite db store suiteId target = .ok suite) :
    LoadedAs db store suiteId dto suite := by
  obtain ⟨entity, -, hload⟩ := bind_eq_ok.1 hload
  obtain ⟨beforeAll, hbeforeAll, hload⟩ := bind_eq_ok.1 hload
  obtain ⟨beforeEach, hbeforeEach, hload⟩ := bind_eq_ok.1 hload
  obtain ⟨afterEach, hafterEach, hload⟩ := bind_eq_ok.1 hload
  obtain ⟨afterAll, hafterAll, hload⟩ := bind_eq_ok.1 hload
  obtain ⟨tests, htests, hret⟩ := bind_eq_ok.1 hload
  obtain rfl := Except.ok.inj hret
  have hhook (phase : HookPhase) := (getHookByPhase_eq_ok h phase).2
  refine ⟨fun phase => ?_, (hhook _ _ hbeforeAll).2, (hhook _ _ hbeforeEach).2,
    (hhook _ _ hafterEach).2, (hhook _ _ hafterAll).2, fun row hrow => ?_⟩
  · cases phase with
    | beforeAll => exact (hhook _ _ hbeforeAll).1
    | beforeEach => exact (hhook _ _ hbeforeEach).1
    | afterEach => exact (hhook _ _ hafterEach).1
    | afterAll => exact (hhook _ _ hafterAll).1
  · exact (mem_getAllTestsBySuiteId h).1 row (mem_of_resolveTestsToExecute htests row hrow)

/-- **A stored suite that can be loaded is loaded whole, where no test is asked for.** -/
theorem loadSuite_isOk
    (h : List.Forall₂ (StoredAs db store suiteId) (storedItems dto)
      (store.items.filter fun item => item.testSuiteId = suiteId))
    (hsuite : ∃ suite, getSuite store suiteId = .ok suite) (hloadable : dto.Loadable) :
    ∃ suite, loadSuite db store suiteId "" = .ok suite ∧
      suite.tests = getAllTestsBySuiteId db store suiteId := by
  obtain ⟨entity, hentity⟩ := hsuite
  obtain ⟨beforeAll, hbeforeAll⟩ := (getHookByPhase_eq_ok h .beforeAll).1 (hloadable _)
  obtain ⟨beforeEach, hbeforeEach⟩ := (getHookByPhase_eq_ok h .beforeEach).1 (hloadable _)
  obtain ⟨afterEach, hafterEach⟩ := (getHookByPhase_eq_ok h .afterEach).1 (hloadable _)
  obtain ⟨afterAll, hafterAll⟩ := (getHookByPhase_eq_ok h .afterAll).1 (hloadable _)
  refine ⟨⟨beforeAll, beforeEach, afterEach, afterAll, getAllTestsBySuiteId db store suiteId⟩,
    ?_, rfl⟩
  rw [loadSuite, hentity, ok_bind, hbeforeAll, ok_bind, hbeforeEach, ok_bind, hafterEach, ok_bind,
    hafterAll, ok_bind, resolveTestsToExecute, if_pos rfl, ok_bind, pure_eq_ok]

theorem rel_toList {α β : Type} {R : α → β → Prop} {a : Option α} {b : Option β}
    (h : Option.Rel R a b) :
    (∀ y ∈ b.toList, ∃ x ∈ a.toList, R x y) ∧ ∀ x ∈ a.toList, ∃ y ∈ b.toList, R x y := by
  cases h with
  | some hR => simpa using hR
  | none => simp

/-- **What a run goes through are rows of the items that are executed.** -/
theorem LoadedAs.planned {suite : LoadedSuite} (h : LoadedAs db store suiteId dto suite) :
    ∀ row ∈ suite.planned, ∃ item ∈ dto.executed, Stores db store suiteId item row := by
  intro row hrow
  simp only [LoadedSuite.planned, LoadedSuite.round, List.mem_append, List.mem_flatMap,
    List.mem_cons] at hrow
  simp only [CreateTestSuiteDto.executed, List.mem_append, List.mem_flatMap, List.mem_cons]
  rcases hrow with (hrow | ⟨test, htest, hrow | rfl | hrow⟩) | hrow
  · obtain ⟨item, hitem, hstores⟩ := (rel_toList h.beforeAll).1 row hrow
    exact ⟨item, .inl (.inl hitem), hstores⟩
  · obtain ⟨dtest, hdtest, -⟩ := h.tests test htest
    obtain ⟨item, hitem, hstores⟩ := (rel_toList h.beforeEach).1 row hrow
    exact ⟨item, .inl (.inr ⟨dtest, hdtest, .inl hitem⟩), hstores⟩
  · obtain ⟨item, hitem, hstores⟩ := h.tests row htest
    exact ⟨item, .inl (.inr ⟨item, hitem, .inr (.inl rfl)⟩), hstores⟩
  · obtain ⟨dtest, hdtest, -⟩ := h.tests test htest
    obtain ⟨item, hitem, hstores⟩ := (rel_toList h.afterEach).1 row hrow
    exact ⟨item, .inl (.inr ⟨dtest, hdtest, .inr (.inr hitem)⟩), hstores⟩
  · obtain ⟨item, hitem, hstores⟩ := (rel_toList h.afterAll).1 row hrow
    exact ⟨item, .inr hitem, hstores⟩

/-- And a run over all tests goes through a row of every item that is executed. -/
theorem LoadedAs.executed {suite : LoadedSuite} (h : LoadedAs db store suiteId dto suite)
    (htests : ∀ test ∈ dto.runTests, ∃ row ∈ suite.tests, Stores db store suiteId test row) :
    ∀ item ∈ dto.executed, ∃ row ∈ suite.planned, Stores db store suiteId item row := by
  intro item hitem
  simp only [CreateTestSuiteDto.executed, List.mem_append, List.mem_flatMap, List.mem_cons] at hitem
  simp only [LoadedSuite.planned, LoadedSuite.round, List.mem_append, List.mem_flatMap,
    List.mem_cons]
  rcases hitem with (hitem | ⟨test, htest, hitem | rfl | hitem⟩) | hitem
  · obtain ⟨row, hrow, hstores⟩ := (rel_toList h.beforeAll).2 item hitem
    exact ⟨row, .inl (.inl hrow), hstores⟩
  · obtain ⟨rtest, hrtest, -⟩ := htests test htest
    obtain ⟨row, hrow, hstores⟩ := (rel_toList h.beforeEach).2 item hitem
    exact ⟨row, .inl (.inr ⟨rtest, hrtest, .inl hrow⟩), hstores⟩
  · obtain ⟨row, hrow, hstores⟩ := htests item htest
    exact ⟨row, .inl (.inr ⟨row, hrow, .inr (.inl rfl)⟩), hstores⟩
  · obtain ⟨rtest, hrtest, -⟩ := htests test htest
    obtain ⟨row, hrow, hstores⟩ := (rel_toList h.afterEach).2 item hitem
    exact ⟨row, .inl (.inr ⟨rtest, hrtest, .inr (.inr hrow)⟩), hstores⟩
  · obtain ⟨row, hrow, hstores⟩ := (rel_toList h.afterAll).2 item hitem
    exact ⟨row, .inr hrow, hstores⟩

/-- The commands of a row are those of its item. -/
theorem Stores.commands {item : CreateSuiteItemDto} {row : SuiteItemEntity}
    (h : Stores db store suiteId item row) :
    (∀ op ∈ getAllBySuiteItemId db store row.id,
        ∃ command ∈ item.commands, op.configurationJson = command.rawCfg) ∧
      ∀ command ∈ item.commands, ∃ op ∈ getAllBySuiteItemId db store row.id,
        op.configurationJson = command.rawCfg := by
  obtain ⟨position, hstored⟩ := h
  obtain ⟨drawn, hoperations⟩ := hstored.operations
  have hmem (op : SuiteItemOperationEntity) : op ∈ getAllBySuiteItemId db store row.id
      ↔ op ∈ operationRows db row.id drawn item.commands := by
    rw [getAllBySuiteItemId, (db.orderOperations_perm _).mem_iff, hoperations]
  constructor
  · intro op hop
    obtain ⟨i, hi, rfl⟩ := List.mem_mapIdx.1 ((hmem op).1 hop)
    exact ⟨_, List.getElem_mem hi, rfl⟩
  · intro command hcommand
    obtain ⟨i, hi, rfl⟩ := List.getElem_of_mem hcommand
    exact ⟨_, (hmem _).2 (List.mem_mapIdx.2 ⟨i, hi, rfl⟩), rfl⟩

end

end Suite
end QualityFlow
