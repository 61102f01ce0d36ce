import TableOrder.ConfigFile
import TableOrder.Pos.Editor

/-!
# The ids of new tables

The add key gives a table one more than the largest id in the slots, but it looks when the new slot is
already counted and not yet cleared, so that a table deleted last still counts. After that ids may
grow over `MAX_TABLES` while the tables stay few (`tableIds_iff`), and what was deleted tells on the
next id (`sameNewId_iff`).
-/

namespace TableOrder

open CLib

/-! ## Ids and the table count -/

/-- The tables have ids up to `MAX_TABLES`, and the config is in range. Then a saved config has the same
table count when it is read back, and a call from a table is recorded. -/
structure TablesServed (s : Pos × World) : Prop where
  ids : ∀ tp ∈ s.1.layout.used, tp.active = true → 1 ≤ tp.tableId ∧ tp.tableId ≤ MAX_TABLES
  maxTables : 1 ≤ s.2.ctx.cfg.maxTables ∧ s.2.ctx.cfg.maxTables ≤ MAX_TABLES
  reloaded : ∀ old : Bytes, ConfigFits (configText (some old)) →
    ∃ text, storageSaveConfig (some old) s.2.ctx.cfg = some text ∧
      (storageLoadConfig (some text)).maxTables = s.2.ctx.cfg.maxTables
  staffCalls : ∀ tp ∈ s.1.layout.used, tp.active = true → ∀ env,
    (recordStaffCall env s.2 tp.tableId).ctx.staffCallAt tp.tableId = env.now

/-- Room for the next id: what the new table is counted with is below the last one. -/
def Board.BelowLimit (b : Board) : Prop :=
  layoutFindAt b.layout b.row b.col = none → ∀ slot grown,
    uiPosLayoutAllocSlot b.layout = some (slot, grown) → layoutMaxTableId grown < MAX_TABLES

/-- What any key keeps. -/
structure EditorKeeps (s : Pos × World) : Prop where
  idsFit : s.1.board.IdsFit
  nextOrderId : 1 ≤ s.2.ctx.cfg.nextOrderId ∧ FitsInt s.2.ctx.cfg.nextOrderId

theorem uiPosSyncMaxTables_nextOrderId (w : World) (layout : StoreLayout) :
    (uiPosSyncMaxTables w layout).ctx.cfg.nextOrderId = w.ctx.cfg.nextOrderId := by
  unfold uiPosSyncMaxTables
  simp only
  split
  · rfl
  · split <;> rfl

/-- The count is the one before, or the largest id. -/
theorem uiPosSyncMaxTables_maxTables (w : World) (layout : StoreLayout) :
    (uiPosSyncMaxTables w layout).ctx.cfg.maxTables = w.ctx.cfg.maxTables ∨
      0 < layoutMaxTableId layout ∧
        (uiPosSyncMaxTables w layout).ctx.cfg.maxTables = layoutMaxTableId layout := by
  unfold uiPosSyncMaxTables
  simp only
  split
  · exact .inl rfl
  · split
    · exact .inr ⟨by omega, rfl⟩
    · exact .inl rfl

theorem EditorKeeps.step {s : Pos × World} (h : EditorKeeps s) (k : PosKey) :
    EditorKeeps (posStep k s) := by
  obtain ⟨hboard, hcfg⟩ := posStep_board k s
  refine ⟨?_, ?_⟩
  · rw [hboard]
    exact h.idsFit.step _
  · rw [hcfg]
    cases synced k s.1 with
    | none => exact h.nextOrderId
    | some layout =>
      rw [Option.map_some, Option.getD_some, uiPosSyncMaxTables_nextOrderId]
      exact h.nextOrderId

/-- Ids and table count in range are all that is needed. -/
theorem TablesServed.of_range {s : Pos × World} (hkept : EditorKeeps s)
    (hids : ∀ tp ∈ s.1.layout.used, tp.active = true → 1 ≤ tp.tableId ∧ tp.tableId ≤ MAX_TABLES)
    (hmax : 1 ≤ s.2.ctx.cfg.maxTables ∧ s.2.ctx.cfg.maxTables ≤ MAX_TABLES) : TablesServed s where
  ids := hids
  maxTables := hmax
  reloaded old hfits := by
    have hcfg : s.2.ctx.cfg.InRange := ⟨hmax, hkept.nextOrderId⟩
    have hnew : (newConfigText old s.2.ctx.cfg).length < 8192 :=
      lt_of_le_of_lt (length_newConfig_le hcfg.fits _) hfits.room
    exact ⟨_, rewriteConfigLines_eq hfits.size hfits.lines hcfg.fits hnew,
      congrArg StoreConfig.maxTables (storageLoadConfig_newConfigText hcfg hnew)⟩
  staffCalls tp htp hon env := by
    obtain ⟨hpos, hle⟩ := hids tp htp hon
    unfold recordStaffCall
    rw [if_pos ⟨by omega, hle⟩]
    exact Function.update_self _ _ _

/-- The largest id of a layout is among those of its tables, or 0. -/
theorem layoutMaxTableId_le {layout : StoreLayout} {n : Int} (hn : 0 ≤ n)
    (h : ∀ tp ∈ layout.used, tp.active = true → tp.tableId ≤ n) : layoutMaxTableId layout ≤ n := by
  rw [layoutMaxTableId_eq]
  rcases (maxIdFrom_spec 0 layout.used).2.2 with hzero | ⟨tp, htp, hon, heq⟩
  · omega
  · rw [← heq]
    exact h tp htp hon

/-- The table count follows the layout before the key or after it. -/
theorem synced_cases {k : PosKey} {pos : Pos} {layout : StoreLayout}
    (h : synced k pos = some layout) :
    layout = pos.layout ∨ layout = (pos.board.step (boardOp k pos)).layout := by
  unfold synced layoutSync at h
  split at h
  · next htab =>
    split at h
    · next hkey =>
      have hop : boardOp k pos = .add := by
        unfold boardOp layoutOp
        rw [htab, hkey]
        rfl
      right
      rw [hop, Board.step, h]
      rfl
    · exact .inl (Option.some.inj h).symm
    · cases h
  · cases h

/-- The layout after an add key that has a cell and a slot. -/
theorem posStep_add {k : PosKey} {s : Pos × World} (hop : boardOp k s.1 = .add)
    (hcell : layoutFindAt s.1.layout s.1.gridRow s.1.gridCol = none) {slot : Nat} {grown : StoreLayout}
    (hslot : uiPosLayoutAllocSlot s.1.layout = some (slot, grown)) :
    (posStep k s).1.layout = grown.setSlot slot
      (s.1.board.newTable (IntSem.wrap.norm (layoutMaxTableId grown + 1))) := by
  have hlayout := congrArg Board.layout (posStep_board k s).1
  rw [hop, Board.step, Board.added_eq_some.mpr ⟨hcell, slot, grown, hslot, rfl⟩] at hlayout
  exact hlayout

theorem tablesServed_step_iff {s : Pos × World} (hkept : EditorKeeps s) (h : TablesServed s)
    (k : PosKey) :
    TablesServed (posStep k s) ↔ (boardOp k s.1 = .add → s.1.board.BelowLimit) := by
  obtain ⟨hboard, hcfg⟩ := posStep_board k s
  have hlayout : (posStep k s).1.layout = (s.1.board.step (boardOp k s.1)).layout :=
    congrArg Board.layout hboard
  have hT : (MAX_TABLES : Int) = 64 := rfl
  constructor
  · intro hserved hop hcell slot grown hslot
    obtain ⟨hpos, hle, -⟩ := Board.maxId_fits hkept.idsFit hslot
    have hadded := posStep_add hop hcell hslot
    have hnew := List.mem_of_find?_eq_some (Board.added_find hcell hslot
      (IntSem.wrap.norm (layoutMaxTableId grown + 1)))
    rw [← hadded] at hnew
    obtain ⟨hmin, hmax⟩ : 1 ≤ IntSem.wrap.norm (layoutMaxTableId grown + 1) ∧
      IntSem.wrap.norm (layoutMaxTableId grown + 1) ≤ MAX_TABLES := hserved.ids _ hnew rfl
    rcases Board.newId_cases ⟨hpos, hle⟩ with ⟨-, hid⟩ | ⟨-, hid⟩ <;> omega
  · intro hbelow
    have hids : ∀ tp ∈ (posStep k s).1.layout.used, tp.active = true →
        1 ≤ tp.tableId ∧ tp.tableId ≤ MAX_TABLES := by
      intro tp' htp' hon
      rw [hlayout] at htp'
      rcases Board.mem_used_step htp' with ⟨tp, htp, hsame⟩ | ⟨hop, hcell, slot, grown, hslot, rfl⟩
      · rw [hsame.active] at hon
        rw [hsame.tableId]
        exact h.ids tp htp hon
      · have hroom := hbelow hop hcell slot grown hslot
        obtain ⟨hpos, hle, -⟩ := Board.maxId_fits hkept.idsFit hslot
        show 1 ≤ IntSem.wrap.norm (layoutMaxTableId grown + 1) ∧
          IntSem.wrap.norm (layoutMaxTableId grown + 1) ≤ MAX_TABLES
        rcases Board.newId_cases ⟨hpos, hle⟩ with ⟨-, hid⟩ | ⟨hlast, -⟩ <;> omega
    refine .of_range (hkept.step k) hids ?_
    rw [hcfg]
    cases hsync : synced k s.1 with
    | none => exact h.maxTables
    | some layout =>
      have hlargest : layoutMaxTableId layout ≤ MAX_TABLES := by
        apply layoutMaxTableId_le (by omega)
        rcases synced_cases hsync with rfl | rfl
        · exact fun tp htp hon => (h.ids tp htp hon).2
        · rw [← hlayout]
          exact fun tp htp hon => (hids tp htp hon).2
      rw [Option.map_some, Option.getD_some]
      rcases uiPosSyncMaxTables_maxTables s.2 layout with hsame | ⟨hpos, hset⟩
      · rw [hsame]
        exact h.maxTables
      · rw [hset]
        exact ⟨by omega, hlargest⟩

/-- From the default layout, ids and table count stay in range exactly when no table is added while one
with the last id is counted, be it one that was deleted. -/
theorem tableIds_iff {w : World} (hcfg : w.ctx.cfg.InRange) (ks : List PosKey) :
    (∀ pre, pre <+: ks → TablesServed (runPos (Pos.start layoutInitDefault, w) pre)) ↔
      Runs.AllSteps posStep (fun k s => boardOp k s.1 = .add → s.1.board.BelowLimit)
        (Pos.start layoutInitDefault, w) ks := by
  have hkept : EditorKeeps (Pos.start layoutInitDefault, w) := ⟨default_idsFit, hcfg.nextOrderId⟩
  have hids : ∀ tp ∈ layoutInitDefault.used, tp.active = true →
      1 ≤ tp.tableId ∧ tp.tableId ≤ MAX_TABLES := by decide +kernel
  have hserved : TablesServed (Pos.start layoutInitDefault, w) :=
    .of_range hkept hids hcfg.maxTables
  have hiff := Runs.always_iff_allSteps (Q := fun _ => True) (I := TablesServed) (J := EditorKeeps)
    (fun k s _ hJ => EditorKeeps.step hJ k) (fun k s _ hJ hI => tablesServed_step_iff hJ hI k)
    hkept (fun a (_ : a ∈ ks) => trivial)
  exact hiff.trans (and_iff_right hserved)

/-- A table more on the default layout. -/
theorem tableIds_iff_added :
    let w := World.boot none none
    let ks := typeKeys [.f 5, .right, .right, .char 'a', .char 's']
    (∀ pre, pre <+: ks → TablesServed (runPos (Pos.start layoutInitDefault, w) pre)) ↔
      Runs.AllSteps posStep (fun k s => boardOp k s.1 = .add → s.1.board.BelowLimit)
        (Pos.start layoutInitDefault, w) ks :=
  tableIds_iff ⟨by decide +kernel, by decide +kernel⟩ _

/-- A table added and deleted fifty times, and once more: it is table 65. -/
theorem tableIds_fails : ¬ ∀ (w : World) (ks : List PosKey), w.ctx.cfg.InRange →
    ∀ pre, pre <+: ks → TablesServed (runPos (Pos.start layoutInitDefault, w) pre) := by
  intro hall
  have hserved := hall (World.boot none none) (typeKeys ([.f 5, .right, .right] ++
    (List.replicate 50 [.char 'a', .char 'd']).flatten ++ [.char 'a'])) ⟨by decide +kernel, by decide +kernel⟩
    _ List.prefix_rfl
  have hids := hserved.ids
  revert hids
  decide +kernel

/-! ## What the next id depends on -/

/-- One more than the largest id of the tables, or 1 when there is none. -/
structure IsNextId (tables : List TablePlacement) (id : Int) : Prop where
  first : tables = [] → id = 1
  next : tables ≠ [] → (∃ tp ∈ tables, tp.tableId + 1 = id) ∧ ∀ tp ∈ tables, tp.tableId < id

/-- The id of the table on the cursor's cell after a key. -/
def newId (k : PosKey) (s : Pos × World) : Option Int :=
  (layoutFindAt (posStep k s).1.layout s.1.gridRow s.1.gridCol).map (·.tableId)

/-- Both keys give the id that follows the tables shown. -/
def SameNewId (k k' : PosKey) (s s' : Pos × World) : Prop :=
  ∃ id, newId k s = some id ∧ newId k' s' = some id ∧ IsNextId s.1.board.shown id

/-- The largest id is not negative, there is one above it, and the slot past the count, if it is the
next one, holds nothing larger. -/
structure Board.Follows (b : Board) : Prop where
  positive : b.shown = [] ∨ ∃ tp ∈ b.shown, 0 ≤ tp.tableId
  below : layoutMaxTableId b.layout < 2147483647
  clean : (∀ tp ∈ b.layout.used, tp.active = true) → ∀ old, b.layout.tables[b.layout.count]? = some old →
    old.active = true → old.tableId ≤ layoutMaxTableId b.layout

theorem IsNextId.unique {tables : List TablePlacement} {id id' : Int} (h : IsNextId tables id)
    (h' : IsNextId tables id') : id = id' := by
  by_cases hnone : tables = []
  · rw [h.first hnone, h'.first hnone]
  · obtain ⟨⟨tp, htp, hid⟩, hmax⟩ := h.next hnone
    obtain ⟨⟨tp', htp', hid'⟩, hmax'⟩ := h'.next hnone
    have := hmax tp' htp'
    have := hmax' tp htp
    omega

/-- The largest id of a layout is that of the tables shown. -/
theorem Board.maxId_shown (b : Board) :
    0 ≤ layoutMaxTableId b.layout ∧ (∀ tp ∈ b.shown, tp.tableId ≤ layoutMaxTableId b.layout) ∧
      (layoutMaxTableId b.layout = 0 ∨
        ∃ tp ∈ b.shown, tp.tableId = layoutMaxTableId b.layout) := by
  obtain ⟨hpos, hmax, hreached⟩ := maxIdFrom_spec 0 b.shown
  rw [shown, maxIdFrom_filter, ← layoutMaxTableId_eq] at hpos hmax hreached
  have hon (tp : TablePlacement) (htp : tp ∈ b.shown) : tp.active = true :=
    (List.mem_filter.mp htp).2
  refine ⟨hpos, fun tp htp => hmax tp htp (hon tp htp), ?_⟩
  rcases hreached with hzero | ⟨tp, htp, -, heq⟩
  · exact .inl hzero
  · exact .inr ⟨tp, htp, heq⟩

/-- Counted with the slot it takes, a new table has the same largest id before it unless what the slot
held counts for more. -/
theorem Board.maxId_grown {b : Board} {slot : Nat} {grown : StoreLayout}
    (hslot : uiPosLayoutAllocSlot b.layout = some (slot, grown)) :
    layoutMaxTableId b.layout ≤ layoutMaxTableId grown ∧
      (layoutMaxTableId grown = layoutMaxTableId b.layout ↔
        ((∀ tp ∈ b.layout.used, tp.active = true) → ∀ old,
          b.layout.tables[b.layout.count]? = some old → old.active = true →
          old.tableId ≤ layoutMaxTableId b.layout)) := by
  rcases StoreLayout.alloc_cases hslot with ⟨rfl, tp, htp, hinactive⟩ | ⟨hactive, rfl, hlt, rfl⟩
  · refine ⟨le_rfl, iff_of_true rfl fun hall => ?_⟩
    rw [hall tp (List.mem_of_getElem? htp)] at hinactive
    cases hinactive
  · obtain ⟨old, hold⟩ := b.layout.exists_slot hlt
    have hmax : layoutMaxTableId { b.layout with count := b.layout.count + 1, bound := hlt } =
        if old.active && decide (layoutMaxTableId b.layout < old.tableId) then old.tableId
        else layoutMaxTableId b.layout := by
      rw [layoutMaxTableId_eq, StoreLayout.used_grown hlt hold, maxIdFrom_concat]
      rfl
    rw [hmax, hold]
    constructor
    · split
      · next hlarger =>
        simp only [Bool.and_eq_true, decide_eq_true_eq] at hlarger
        exact hlarger.2.le
      · exact le_rfl
    · split
      · next hlarger =>
        simp only [Bool.and_eq_true, decide_eq_true_eq] at hlarger
        refine iff_of_false (by omega) fun hclean => ?_
        have := hclean hactive old rfl hlarger.1
        omega
      · next hsmaller =>
        refine iff_of_true rfl ?_
        rintro - _ ⟨rfl⟩ hon
        simp only [hon, Bool.true_and, decide_eq_true_eq] at hsmaller
        omega

/-- One more than what the new table is counted with follows the tables shown under the conditions of
`Follows`. -/
theorem Board.isNextId_iff {b : Board} (hids : b.IdsFit) {slot : Nat} {grown : StoreLayout}
    (hslot : uiPosLayoutAllocSlot b.layout = some (slot, grown)) :
    IsNextId b.shown (IntSem.wrap.norm (layoutMaxTableId grown + 1)) ↔ b.Follows := by
  obtain ⟨hpos, hmax, hreached⟩ := b.maxId_shown
  obtain ⟨hle, hclean⟩ := maxId_grown hslot
  obtain ⟨-, hlast, -⟩ := maxId_fits hids hslot
  constructor
  · intro hnext
    -- the id is one above a table shown, or 1 without tables
    have hequal : layoutMaxTableId grown = layoutMaxTableId b.layout ∧
        layoutMaxTableId grown < 2147483647 ∧ (b.shown = [] ∨ ∃ tp ∈ b.shown, 0 ≤ tp.tableId) := by
      by_cases hnone : b.shown = []
      · have hfirst := hnext.first hnone
        rcases newId_cases ⟨by omega, hlast⟩ with ⟨hbelow, hid⟩ | ⟨-, hid⟩
        · exact ⟨by omega, hbelow, .inl hnone⟩
        · omega
      · obtain ⟨⟨tp, htp, hid⟩, -⟩ := hnext.next hnone
        have hfits := (hids tp (List.mem_of_mem_take (List.mem_filter.mp htp).1)).1
        have hshown := hmax tp htp
        rcases newId_cases ⟨by omega, hlast⟩ with ⟨hbelow, hwrap⟩ | ⟨-, hwrap⟩
        · exact ⟨by omega, hbelow, .inr ⟨tp, htp, by omega⟩⟩
        · omega
    obtain ⟨hsame, hbelow, hpositive⟩ := hequal
    exact ⟨hpositive, hsame ▸ hbelow, hclean.mp hsame⟩
  · rintro ⟨hpositive, hbelow, hold⟩
    have hsame := hclean.mpr hold
    rcases newId_cases ⟨by omega, hlast⟩ with ⟨-, hid⟩ | ⟨hend, -⟩
    · rw [hid, hsame]
      refine ⟨fun hnone => ?_, fun hsome => ⟨?_, fun tp htp => ?_⟩⟩
      · rcases hreached with hzero | ⟨tp, htp, -⟩
        · omega
        · rw [hnone] at htp
          cases htp
      · rcases hreached with hzero | ⟨tp, htp, heq⟩
        · obtain ⟨tp, htp, hnonneg⟩ := hpositive.resolve_left hsome
          have hshown := hmax tp htp
          exact ⟨tp, htp, by omega⟩
        · exact ⟨tp, htp, by omega⟩
      · have hshown := hmax tp htp
        omega
    · omega

/-- The new id of one board. -/
theorem newId_follows_iff {k : PosKey} {s : Pos × World} (hop : boardOp k s.1 = .add)
    (hcell : layoutFindAt s.1.layout s.1.gridRow s.1.gridCol = none)
    (hroom : s.1.board.shown.length < MAX_LAYOUT_TABLES) (hids : s.1.board.IdsFit) :
    (∃ id, newId k s = some id ∧ IsNextId s.1.board.shown id) ↔ s.1.board.Follows := by
  obtain ⟨⟨slot, grown⟩, hslot⟩ := Option.isSome_iff_exists.mp (StoreLayout.alloc_isSome hroom)
  have hnew : newId k s = some (IntSem.wrap.norm (layoutMaxTableId grown + 1)) := by
    have hfind := Board.added_find (b := s.1.board) hcell hslot
      (IntSem.wrap.norm (layoutMaxTableId grown + 1))
    rw [newId, posStep_add hop hcell hslot]
    exact congrArg (Option.map (·.tableId)) hfind
  rw [← Board.isNextId_iff hids hslot, hnew]
  simp

/-- Two boards with the same tables shown and the cursor on the same empty cell: the add key gives both
the id that follows these tables exactly when that is so for each, whatever its slots hold. -/
theorem sameNewId_iff {k k' : PosKey} {s s' : Pos × World} (hop : boardOp k s.1 = .add)
    (hop' : boardOp k' s'.1 = .add) (hshown : s'.1.board.shown = s.1.board.shown)
    (hcell : layoutFindAt s.1.layout s.1.gridRow s.1.gridCol = none)
    (hcell' : layoutFindAt s'.1.layout s'.1.gridRow s'.1.gridCol = none)
    (hroom : s.1.board.shown.length < MAX_LAYOUT_TABLES) (hids : s.1.board.IdsFit)
    (hids' : s'.1.board.IdsFit) :
    SameNewId k k' s s' ↔ s.1.board.Follows ∧ s'.1.board.Follows := by
  rw [← newId_follows_iff hop hcell hroom hids, ← newId_follows_iff hop' hcell' (hshown ▸ hroom) hids', hshown]
  constructor
  · rintro ⟨id, hid, hid', hnext⟩
    exact ⟨⟨id, hid, hnext⟩, id, hid', hnext⟩
  · rintro ⟨⟨id, hid, hnext⟩, id', hid', hnext'⟩
    exact ⟨id, hid, by rw [hid', hnext'.unique hnext], hnext⟩

/-- The keys of two operators at the default layout: to the empty cell (0, 2), the second one with a
table added there and deleted. -/
def keysToCell : List PosKey := typeKeys [.right, .right]

def keysAddDelete : List PosKey := typeKeys [.right, .right, .char 'a', .char 'd']

/-- A zone changed and changed back does not tell. -/
theorem sameNewId_rezoned :
    let k : PosKey := ⟨Env.fair 1, Typed.nothing, .char 'a'⟩
    let s := runPos (Pos.editor layoutInitDefault, World.boot none none) keysToCell
    let s' := runPos (Pos.editor layoutInitDefault, World.boot none none)
      (typeKeys [.char 'z', .char 'z', .right, .right])
    SameNewId k k s s' ↔ s.1.board.Follows ∧ s'.1.board.Follows :=
  sameNewId_iff (by rfl) (by rfl) (by decide +kernel) (by decide +kernel) (by decide +kernel)
    (by decide +kernel) (by unfold Board.IdsFit; decide +kernel)
    (by unfold Board.IdsFit; decide +kernel)

/-- The table deleted before makes the new one table 16 and not 15. -/
theorem sameNewId_fails : ¬ ∀ (w : World) (ks ks' : List PosKey) (k : PosKey),
    let s := runPos (Pos.editor layoutInitDefault, w) ks
    let s' := runPos (Pos.editor layoutInitDefault, w) ks'
    k.key = .char 'a' → s.1.tab = .layout → s'.1.tab = .layout →
    s'.1.board.shown = s.1.board.shown → s'.1.gridRow = s.1.gridRow → s'.1.gridCol = s.1.gridCol →
    layoutFindAt s.1.layout s.1.gridRow s.1.gridCol = none →
    s.1.board.shown.length < MAX_LAYOUT_TABLES → SameNewId k k s s' := by
  intro hall
  obtain ⟨id, hid, hid', -⟩ := hall (World.boot none none) keysToCell keysAddDelete
    ⟨Env.fair 1, Typed.nothing, .char 'a'⟩ rfl (by decide +kernel) (by decide +kernel)
    (by decide +kernel) (by decide +kernel) (by decide +kernel) (by decide +kernel) (by decide +kernel)
  exact absurd (hid.trans hid'.symm) (by decide +kernel)

end TableOrder
