import TableOrder.Pos.Board

/-!
# The layout editor (`ui_run_pos`)

Whatever the tab, a key does one operation on the board (`posStep_board`). So what holds of the
operations holds of every sequence of keys: which ones keep the tables apart (`editor_sound_iff`) and
on the grid (`editor_shows_iff`), and that none moves a table (`move_never`).
-/

namespace TableOrder

open CLib

/-! ## Keys -/

/-- A key, with what the prompts return and what the files do. -/
structure PosKey where
  env : Env
  typed : Typed
  key : Key

def posStep (k : PosKey) (s : Pos × World) : Pos × World :=
  handleKey .wrap k.env k.typed k.key s.1 s.2

def runPos (s : Pos × World) (ks : List PosKey) : Pos × World := Runs.run posStep s ks

def Pos.board (pos : Pos) : Board := ⟨pos.layout, pos.gridRow, pos.gridCol⟩

/-- What a key does on the layout tab. -/
def layoutOp (k : PosKey) : BoardOp :=
  match k.key with
  | .char 'g' => .resize k.typed.rows k.typed.cols
  | .char 'a' => .add
  | .char 'd' => .remove
  | .char 'z' => .rezone
  | .char 'l' => .label k.typed.label
  | key => .arrow key

/-- The tab a key is handled on. -/
def keyTab (k : PosKey) (pos : Pos) : PosTab := (selectTab k.key pos).tab

def boardOp (k : PosKey) (pos : Pos) : BoardOp :=
  match keyTab k pos with
  | .home => .arrow k.key
  | .layout => layoutOp k
  | _ => .arrow .other

/-- The layout `ui_pos_sync_max_tables` is called with on the layout tab, if it is. -/
def layoutSync (key : Key) (b : Board) : Option StoreLayout :=
  match key with
  | .char 'a' => b.added
  | .char 's' => some b.layout
  | _ => none

def synced (k : PosKey) (pos : Pos) : Option StoreLayout :=
  if keyTab k pos = .layout then layoutSync k.key pos.board else none

/-! ## A key does its operation -/

theorem moveCursor_board (pos : Pos) (key : Key) :
    (moveCursor pos key).board = pos.board.arrow key := by
  unfold moveCursor Board.arrow
  cases key with
  | up => exact apply_ite Pos.board _ _ _
  | down => exact apply_ite Pos.board _ _ _
  | left => exact apply_ite Pos.board _ _ _
  | right => exact apply_ite Pos.board _ _ _
  | _ => rfl

theorem moveCursor_tab (pos : Pos) (key : Key) : (moveCursor pos key).tab = pos.tab := by
  unfold moveCursor
  split <;> first | rfl | (split <;> rfl)

theorem selectTab_board (key : Key) (pos : Pos) : (selectTab key pos).board = pos.board := by
  unfold selectTab
  split <;> rfl

/-- The board, the tab and the config are as before. -/
structure LeavesBoard (s s' : Pos × World) : Prop where
  board : s'.1.board = s.1.board
  tab : s'.1.tab = s.1.tab
  cfg : s'.2.ctx.cfg = s.2.ctx.cfg

theorem homeKeys_board (key : Key) (pos : Pos) (w : World) :
    (homeKeys .wrap key pos w).1.board = pos.board.arrow key ∧
      ((homeKeys .wrap key pos w).1.tab = pos.tab ∨ (homeKeys .wrap key pos w).1.tab = .payment) ∧
      (homeKeys .wrap key pos w).2.ctx.cfg = w.ctx.cfg := by
  rw [← moveCursor_board, ← moveCursor_tab pos key]
  unfold homeKeys
  simp only
  split
  · exact ⟨rfl, .inr rfl, rfl⟩
  · exact ⟨rfl, .inl rfl, rfl⟩
  · exact ⟨rfl, .inl rfl, rfl⟩

theorem serverPayOrder_cfg (env : Env) (w : World) (orderId : Int) :
    (serverPayOrder .wrap env w orderId).2.ctx.cfg = w.ctx.cfg := by
  rcases hpay : serverPayOrder .wrap env w orderId with ⟨r, w'⟩
  rcases serverPayOrder_cases .wrap hpay with ⟨-, rfl⟩ | ⟨i, o, -, -, -, -, hmoved⟩
  · rfl
  · rw [hmoved.ctx]

theorem paymentKeys_leaves (env : Env) (typed : Typed) (key : Key) (pos : Pos) (w : World) :
    LeavesBoard (pos, w) (paymentKeys .wrap env typed key pos w) := by
  have hpaid (ids : List Int) (w : World) :
      (ids.foldl (fun w oid => (serverPayOrder .wrap env w oid).2) w).ctx.cfg =
        w.ctx.cfg := by
    induction ids generalizing w with
    | nil => rfl
    | cons oid ids ih =>
      rw [List.foldl_cons, ih]
      exact serverPayOrder_cfg env w oid
  unfold paymentKeys
  simp only
  split
  · split <;> exact ⟨rfl, rfl, rfl⟩
  · exact ⟨rfl, rfl, rfl⟩
  · exact ⟨rfl, rfl, rfl⟩
  · split
    · exact ⟨rfl, rfl, serverPayOrder_cfg env w _⟩
    · exact ⟨rfl, rfl, rfl⟩
  · split
    · exact ⟨rfl, rfl, hpaid _ w⟩
    · exact ⟨rfl, rfl, rfl⟩
  · exact ⟨rfl, rfl, rfl⟩

theorem menuKeys_leaves (env : Env) (typed : Typed) (key : Key) (pos : Pos) (w : World) :
    LeavesBoard (pos, w) (menuKeys .wrap env typed key pos w) := by
  have hstore (w : World) (r : Except Bytes MenuCatalog) :
      (storeMenu w r).ctx.cfg = w.ctx.cfg := by
    unfold storeMenu
    split <;> rfl
  have hsave (w : World) : (saveMenu env w).ctx.cfg = w.ctx.cfg := by
    unfold saveMenu
    split <;> rfl
  have hsync (w : World) : (broadcastMenuSync w).ctx.cfg = w.ctx.cfg := rfl
  unfold menuKeys
  simp only
  split <;> refine ⟨rfl, rfl, ?_⟩ <;> simp [hstore, hsave, hsync]

theorem editSlot_board (pos : Pos) {idx : Nat}
    (h : uiPosLayoutFindIndex pos.layout pos.gridRow pos.gridCol = some idx)
    (f : TablePlacement → TablePlacement) : (editSlot pos idx f).board = pos.board.edit f := by
  have hidx : uiPosLayoutFindIndex pos.board.layout pos.board.row pos.board.col = some idx := h
  unfold editSlot Board.edit
  rw [hidx]
  simp only [Pos.board]
  cases pos.layout.tables[idx]? <;> rfl

theorem addKey_board (env : Env) (typed : Typed) (pos : Pos) (w : World) :
    (layoutKeys .wrap env typed (.char 'a') pos w).1.board = pos.board.step .add ∧
      (layoutKeys .wrap env typed (.char 'a') pos w).2 =
        (pos.board.added.map (uiPosSyncMaxTables w)).getD w := by
  unfold layoutKeys Board.step Board.added
  cases hcell : (layoutFindAt pos.layout pos.gridRow pos.gridCol).isSome with
  | true => simp [moveCursor, Pos.board, hcell]
  | false =>
    cases hslot : uiPosLayoutAllocSlot pos.layout with
    | none => simp [moveCursor, Pos.board, hcell, hslot]
    | some r => simp [moveCursor, Pos.board, hcell, hslot, addedTable, Board.newTable]

theorem layoutKeys_board (env : Env) (typed : Typed) (key : Key) (pos : Pos) (w : World) :
    (layoutKeys .wrap env typed key pos w).1.board = pos.board.step (layoutOp ⟨env, typed, key⟩) := by
  have hmove := moveCursor_board pos key
  -- the state after the look under the cursor
  let looked : Pos :=
    { pos with layoutEditIdx := uiPosLayoutFindIndex pos.layout pos.gridRow pos.gridCol }
  by_cases hadd : key = .char 'a'
  · subst hadd
    exact (addKey_board env typed pos w).1
  unfold layoutKeys
  simp only
  split
  · -- the sizes
    show (if Board.Accepts typed.rows typed.cols then _ else _ : Pos × World).1.board =
      (if Board.Accepts typed.rows typed.cols then _ else _)
    split <;> rfl
  · exact absurd rfl hadd
  · next idx hidx =>
    show _ = pos.board.remove
    unfold Board.remove
    rw [show uiPosLayoutFindIndex pos.board.layout pos.board.row pos.board.col = some idx from hidx]
    rfl
  · next idx hidx => exact editSlot_board looked hidx _
  · next idx hidx =>
    show (if typed.label = [] then _ else _ : Pos × World).1.board =
      (if typed.label = [] then pos.board else _)
    split
    · rfl
    · exact editSlot_board looked hidx _
  · rfl
  · next idx hidx =>
    split
    · rw [if_pos (layoutFindAt_isSome hidx)]
      rfl
    · rfl
  · split <;> rfl
  · next key _ _ hg _ hs hd hz hl hm _ =>
    -- a key without an operation, or one that needs a table and has none
    show (moveCursor pos key).board = _
    by_cases hkeys : key = .char 'd' ∨ key = .char 'z' ∨ key = .char 'l'
    · have hidx : uiPosLayoutFindIndex pos.layout pos.gridRow pos.gridCol = none := by
        rw [Option.eq_none_iff_forall_ne_some]
        intro idx hidx
        rcases hkeys with rfl | rfl | rfl
        · exact hd idx rfl hidx
        · exact hz idx rfl hidx
        · exact hl idx rfl hidx
      rcases hkeys with rfl | rfl | rfl
      · exact (Board.remove_of_none (b := pos.board) hidx).symm
      · exact (Board.edit_of_none (b := pos.board) hidx _).symm
      · show pos.board = if typed.label = [] then pos.board else _
        rw [Board.edit_of_none (b := pos.board) hidx, ite_self]
    · rw [hmove]
      have hop : layoutOp ⟨env, typed, key⟩ = .arrow key := by
        unfold layoutOp
        simp only
        split <;> simp_all
      rw [hop]
      rfl

theorem layoutKeys_cfg (env : Env) (typed : Typed) (key : Key) (pos : Pos) (w : World) :
    (layoutKeys .wrap env typed key pos w).2.ctx.cfg =
      (((layoutSync key pos.board).map (uiPosSyncMaxTables w)).getD w).ctx.cfg := by
  unfold layoutSync
  split
  · exact congrArg (·.ctx.cfg) (addKey_board env typed pos w).2
  · unfold layoutKeys
    simp only
    split
    · rw [serverSaveConfig_ctx]
      rfl
    · rfl
  · next ha hs =>
    unfold layoutKeys
    simp only
    split
    case h_2 => exact absurd rfl ha
    case h_8 => exact absurd rfl hs
    all_goals first | rfl | (split <;> rfl)

/-- Whatever tab a key is for, it does one operation on the board. -/
theorem posStep_board (k : PosKey) (s : Pos × World) :
    (posStep k s).1.board = s.1.board.step (boardOp k s.1) ∧
      (posStep k s).2.ctx.cfg =
        (((synced k s.1).map (uiPosSyncMaxTables s.2)).getD s.2).ctx.cfg := by
  obtain ⟨env, typed, key⟩ := k
  obtain ⟨pos, w⟩ := s
  have hselect := selectTab_board key pos
  unfold posStep handleKey boardOp synced keyTab
  simp only
  split
  · next hq =>
    -- q and Q are no operation on any tab
    rcases hq with rfl | rfl <;> cases hpos : pos.tab <;>
      simp [selectTab, tabOfKey, hpos, layoutSync, quit] <;> rfl
  rw [← hselect]
  generalize selectTab key pos = q
  have hpayment := paymentKeys_leaves env typed key
  have hmenu := menuKeys_leaves env typed key
  cases hq : q.tab with
  | home =>
    obtain ⟨hboard, htab, hcfg⟩ := homeKeys_board key q w
    rw [show onTab .home (homeKeys .wrap key) (q, w) = homeKeys .wrap key q w from if_pos hq]
    generalize homeKeys .wrap key q w = s at *
    have h := hpayment s.1 s.2
    rcases htab with htab | htab
    · rw [hq] at htab
      simp [onTab, htab, hboard, hcfg, Board.step]
    · simp [onTab, htab, h.tab, h.board, h.cfg, hboard, hcfg, Board.step]
  | payment =>
    have h := hpayment q w
    simp [onTab, hq, h.tab, h.board, h.cfg, Board.step, Board.arrow]
  | menu =>
    have h := hmenu q w
    simp [onTab, hq, h.tab, h.board, h.cfg, Board.step, Board.arrow]
  | sales =>
    simp [onTab, hq, Board.step, Board.arrow]
  | layout =>
    have hboard := layoutKeys_board env typed key q w
    have hcfg := layoutKeys_cfg env typed key q w
    simp [onTab, hq, hboard, hcfg]

/-- Any keys keep the board sound, from any sound board, unless one adds a table under an id that is
taken. -/
theorem editor_sound_iff {pos : Pos} (hsound : pos.board.Sound) (hids : pos.board.IdsFit) (w : World)
    (ks : List PosKey) :
    (∀ pre, pre <+: ks → (runPos (pos, w) pre).1.board.Sound) ↔
      Runs.AllSteps posStep (fun k s => boardOp k s.1 = .add → ¬ s.1.board.Clashes) (pos, w) ks := by
  have hkeep (k : PosKey) (s : Pos × World) (hJ : s.1.board.IdsFit) : (posStep k s).1.board.IdsFit := by
    rw [(posStep_board k s).1]
    exact hJ.step _
  have hstep (k : PosKey) (s : Pos × World) (hJ : s.1.board.IdsFit) (hI : s.1.board.Sound) :
      (posStep k s).1.board.Sound ↔ (boardOp k s.1 = .add → ¬ s.1.board.Clashes) := by
    rw [(posStep_board k s).1]
    exact hI.step_iff hJ _
  have hiff := Runs.always_iff_allSteps (Q := fun _ => True) (I := fun s : Pos × World => s.1.board.Sound)
    (J := fun s => s.1.board.IdsFit) (fun k s _ => hkeep k s) (fun k s _ => hstep k s) (s := (pos, w))
    hids (fun a (_ : a ∈ ks) => trivial)
  exact hiff.trans (and_iff_right hsound)

/-- Keys with no answer at the prompts. -/
def typeKeys (keys : List Key) : List PosKey := keys.map (⟨Env.fair 1, Typed.nothing, ·⟩)

theorem default_sound : (Pos.start layoutInitDefault).board.Sound :=
  ⟨by decide, by decide +kernel, by decide +kernel, by decide +kernel, by decide +kernel⟩

theorem default_idsFit : (Pos.start layoutInitDefault).board.IdsFit := by
  unfold Board.IdsFit
  decide +kernel

/-- A table more on the default layout. -/
theorem editor_sound_added :
    let pos := Pos.start layoutInitDefault
    let w := World.boot none none
    let ks := typeKeys [.f 5, .right, .right, .char 'a']
    (∀ pre, pre <+: ks → (runPos (pos, w) pre).1.board.Sound) ↔
      Runs.AllSteps posStep (fun k s => boardOp k s.1 = .add → ¬ s.1.board.Clashes) (pos, w) ks :=
  editor_sound_iff default_sound default_idsFit _ _

/-- One table with the largest id. -/
def lastIdLayout : StoreLayout := layoutAddSlot layoutInit 2147483647 .outside 0 0 (lit "T")

/-- Beside the largest id two new tables get the same one. -/
theorem editor_sound_fails : ¬ ∀ (pos : Pos) (w : World) (ks : List PosKey),
    pos.board.Sound → pos.board.IdsFit → ∀ pre, pre <+: ks → (runPos (pos, w) pre).1.board.Sound := by
  intro hall
  have hsound : (Pos.start lastIdLayout).board.Sound :=
    ⟨by decide, by decide +kernel, by decide +kernel, by decide +kernel, by decide +kernel⟩
  have hids : (Pos.start lastIdLayout).board.IdsFit := by
    unfold Board.IdsFit
    decide +kernel
  have hrun := hall (Pos.start lastIdLayout) (World.boot none none)
    (typeKeys [.f 5, .right, .char 'a', .right, .char 'a']) hsound hids _ List.prefix_rfl
  revert hrun
  refine mt Board.Sound.ids ?_
  decide +kernel

/-! ## The move mode -/

/-- The table of a slot is on the cell with its id, zone and label, and the other slots are as
before. -/
def MovedTo (layout : StoreLayout) (idx : Nat) (row col : Int) (layout' : StoreLayout) : Prop :=
  ∃ tp, layout.tables[idx]? = some tp ∧
    layoutFindAt layout' row col = some { tp with row := row, col := col } ∧
    ∀ i, i ≠ idx → layout'.tables[i]? = layout.tables[i]?

/-- `m`, Enter and the arrows leave the layout alone on every tab. -/
theorem posStep_layout_of_moveKey {k : PosKey}
    (hkey : k.key ∈ [Key.up, .down, .left, .right, .char 'm', .enter]) (s : Pos × World) :
    (posStep k s).1.layout = s.1.layout := by
  have hop : ∃ key, boardOp k s.1 = .arrow key := by
    have hlayout : layoutOp k = .arrow k.key := by
      unfold layoutOp
      split <;> simp_all
    unfold boardOp
    split
    · exact ⟨k.key, rfl⟩
    · exact ⟨k.key, hlayout⟩
    · exact ⟨.other, rfl⟩
  obtain ⟨key, hop⟩ := hop
  have hboard := (posStep_board k s).1
  rw [hop] at hboard
  exact (congrArg Board.layout hboard).trans (Board.arrow_layout _ key)

/-- The table to move is looked up under the cursor again when Enter is pressed, so that on an empty
cell there is none: no table ever moves. -/
theorem move_never (pos : Pos) (w : World) {m enter : PosKey} (path : List PosKey)
    (hm : m.key = .char 'm') (henter : enter.key = .enter)
    (hpath : ∀ k ∈ path, k.key ∈ [Key.up, .down, .left, .right])
    (hempty : layoutFindAt pos.layout (runPos (pos, w) (m :: path)).1.gridRow
      (runPos (pos, w) (m :: path)).1.gridCol = none) :
    let before := (runPos (pos, w) (m :: path)).1
    let after := (runPos (pos, w) (m :: path ++ [enter])).1
    after.layout = pos.layout ∧
      ∀ idx, uiPosLayoutFindIndex pos.layout pos.gridRow pos.gridCol = some idx →
        ¬ MovedTo pos.layout idx before.gridRow before.gridCol after.layout := by
  intro before after
  have hlayout : after.layout = pos.layout := by
    refine Runs.run_invariant (P := fun k : PosKey =>
      k.key ∈ [Key.up, .down, .left, .right, .char 'm', .enter])
      (I := fun s : Pos × World => s.1.layout = pos.layout) ?_ rfl ?_
    · intro k s hk hs
      rw [posStep_layout_of_moveKey hk, hs]
    · intro k hk
      rw [List.cons_append, List.mem_cons, List.mem_append, List.mem_singleton] at hk
      rcases hk with rfl | hk | rfl
      · simp [hm]
      · have := hpath k hk
        simp only [List.mem_cons] at this ⊢
        tauto
      · simp [henter]
  refine ⟨hlayout, ?_⟩
  rintro idx - ⟨tp, -, hat, -⟩
  rw [hlayout, hempty] at hat
  cases hat

/-- `ui_run_pos` on the layout tab. -/
def Pos.editor (layout : StoreLayout) : Pos := { Pos.start layout with tab := .layout }

/-- Table 1 of the default layout is not moved two cells to the right. -/
theorem move_never_default :
    let pos := Pos.editor layoutInitDefault
    let w := World.boot none none
    let before := (runPos (pos, w) (typeKeys [.char 'm', .right, .right])).1
    let after := (runPos (pos, w) (typeKeys [.char 'm', .right, .right] ++ typeKeys [.enter])).1
    after.layout = pos.layout ∧
      ∀ idx, uiPosLayoutFindIndex pos.layout pos.gridRow pos.gridCol = some idx →
        ¬ MovedTo pos.layout idx before.gridRow before.gridCol after.layout :=
  move_never (Pos.editor layoutInitDefault) (World.boot none none)
    (typeKeys [.right, .right]) rfl rfl (by simp [typeKeys]) (by decide +kernel)

theorem move_fails : ¬ ∀ (pos : Pos) (w : World) (idx : Nat) (m enter : PosKey) (path : List PosKey),
    pos.tab = .layout → pos.layoutMoveMode = false →
    uiPosLayoutFindIndex pos.layout pos.gridRow pos.gridCol = some idx →
    m.key = .char 'm' → enter.key = .enter → (∀ k ∈ path, k.key ∈ [Key.up, .down, .left, .right]) →
    let before := (runPos (pos, w) (m :: path)).1
    layoutFindAt before.layout before.gridRow before.gridCol = none →
    MovedTo pos.layout idx before.gridRow before.gridCol
      (runPos (pos, w) (m :: path ++ [enter])).1.layout := by
  intro hall
  have hfind : uiPosLayoutFindIndex (Pos.editor layoutInitDefault).layout 0 0 = some 0 := by
    decide +kernel
  obtain ⟨tp, -, hat, -⟩ := hall (Pos.editor layoutInitDefault) (World.boot none none) 0
    ⟨Env.fair 1, Typed.nothing, .char 'm'⟩ ⟨Env.fair 1, Typed.nothing, .enter⟩
    (typeKeys [.right, .right]) rfl rfl hfind rfl rfl (by simp [typeKeys]) (by decide +kernel)
  exact absurd (Option.isSome_iff_exists.mpr ⟨_, hat⟩) (by decide +kernel)

/-! ## Tables on the grid -/

/-- The tables stay on the grid, and in reach, exactly when no key makes the grid smaller than a table
needs. -/
theorem editor_shows_iff {pos : Pos} (hcursor : Board.Inside pos.layout pos.gridRow pos.gridCol)
    (hshows : ∀ tp ∈ pos.layout.used, tp.active = true → Board.Inside pos.layout tp.row tp.col)
    (w : World) (ks : List PosKey) :
    (∀ pre, pre <+: ks → (runPos (pos, w) pre).1.board.Shows) ↔
      Runs.AllSteps posStep (fun k s => s.1.board.FitsGrid (boardOp k s.1)) (pos, w) ks := by
  have hkeep (k : PosKey) (s : Pos × World) (hJ : Board.Inside s.1.layout s.1.gridRow s.1.gridCol) :
      Board.Inside (posStep k s).1.layout (posStep k s).1.gridRow (posStep k s).1.gridCol := by
    show Board.Inside (posStep k s).1.board.layout (posStep k s).1.board.row (posStep k s).1.board.col
    rw [(posStep_board k s).1]
    exact Board.step_cursor hJ _
  have hstep (k : PosKey) (s : Pos × World) (hJ : Board.Inside s.1.layout s.1.gridRow s.1.gridCol)
      (hI : s.1.board.Shows) :
      (posStep k s).1.board.Shows ↔ s.1.board.FitsGrid (boardOp k s.1) := by
    rw [(posStep_board k s).1]
    exact Board.shows_step_iff hJ hI _
  have hiff := Runs.always_iff_allSteps (Q := fun _ => True) (I := fun s : Pos × World => s.1.board.Shows)
    (J := fun s => Board.Inside s.1.layout s.1.gridRow s.1.gridCol) (fun k s _ => hkeep k s)
    (fun k s _ => hstep k s) (s := (pos, w)) hcursor (fun a (_ : a ∈ ks) => trivial)
  exact hiff.trans (and_iff_right ((Board.shows_iff hcursor).mpr hshows))

/-- The default layout on a larger grid. -/
theorem editor_shows_larger :
    let pos := Pos.editor layoutInitDefault
    let w := World.boot none none
    let ks : List PosKey := [⟨Env.fair 1, { Typed.nothing with rows := 9, cols := 9 }, .char 'g'⟩]
    (∀ pre, pre <+: ks → (runPos (pos, w) pre).1.board.Shows) ↔
      Runs.AllSteps posStep (fun k s => s.1.board.FitsGrid (boardOp k s.1)) (pos, w) ks :=
  editor_shows_iff (by decide) (by decide +kernel) _ _

/-- A grid of one cell leaves 13 of its 14 tables outside. -/
theorem editor_shows_fails : ¬ ∀ (pos : Pos) (w : World) (ks : List PosKey),
    Board.Inside pos.layout pos.gridRow pos.gridCol →
    (∀ tp ∈ pos.layout.used, tp.active = true → Board.Inside pos.layout tp.row tp.col) →
    ∀ pre, pre <+: ks → (runPos (pos, w) pre).1.board.Shows := by
  intro hall
  have hshows := hall (Pos.editor layoutInitDefault) (World.boot none none)
    [⟨Env.fair 1, { Typed.nothing with rows := 1, cols := 1 }, .char 'g'⟩] (by decide)
    (by decide +kernel) _ List.prefix_rfl
  have hinside := fun tp htp hon => (hshows tp htp hon).1
  revert hinside
  decide +kernel

end TableOrder
