import TableOrder.Pos.LayoutReload
import TableOrder.Pos.Screen
import TableOrder.Server.Durability

/-!
# The layout from one start of the program to the next (`main`, `ui_run_pos`)

The program loads the layout before the loop of `ui_run_pos` and saves it after it; in between the
operator saves it with `s`. A `Shift` is one run of the program, which may fail to start and may end by a
crash at any point. Each shift opens with the layout that was saved last, in whatever shift
(`layout_survives`).
-/

namespace TableOrder

open CLib

/-! ## A shift -/

/-- What a process finds on the disk, and leaves there. -/
structure Files where
  configFile : Option Bytes
  menuFile : Option Bytes
  layoutFile : Option Bytes
  salesLog : Bytes

namespace Files

def boot (files : Files) : World :=
  { World.boot files.configFile files.menuFile with layoutFile := files.layoutFile }

def after (files : Files) (w : World) : Files where
  configFile := w.configFile
  menuFile := w.menuFile
  layoutFile := w.layoutFile
  salesLog := files.salesLog ++ w.salesLog.flatten

end Files

def ensureLayoutFile (env : Env) (w : World) : World :=
  match w.layoutFile, layoutSave layoutInitDefault, env.layoutSaved with
  | none, some text, true => { w with layoutFile := some text }
  | _, _, _ => w

/-- `ui_run_pos` up to its loop. `none` is a read of `layout_load` behind its buffer. -/
def openPos (env : Env) (hub : Hub) : Option Desk :=
  (layoutLoad hub.world.layoutFile).map fun layout =>
    let layout := uiPosLayoutCompact layout
    let w := serverSaveConfig env (uiPosSyncMaxTables (ensureLayoutFile env hub.world) layout)
    { Desk.start layout w with hub := { hub with world := w } }

/-- `ui_run_pos` behind its loop. -/
def closePos (env : Env) (d : Desk) : World :=
  let w :=
    match layoutSave d.pos.layout, env.layoutSaved with
    | some text, true => { d.hub.world with layoutFile := some text }
    | _, _ => d.hub.world
  serverSaveConfig env (uiPosSyncMaxTables w d.pos.layout)

/-- One run of `main`. Clients may come before the POS is open; a shift that is not closed crashes. -/
structure Shift where
  env : Env
  early : List HubAction
  actions : List DeskAction
  closing : Option Env

namespace Shift

/-- The POS when it is open. -/
def opened (s : Shift) (files : Files) : Option Desk :=
  match startUp s.env files.boot with
  | (.error _, _) => none
  | (.ok (), w) => openPos s.env (runHub (Hub.start w) s.early)

def ended (s : Shift) (log : Bytes) (d : Desk) : World :=
  let d := runDesk log d s.actions
  match s.closing with
  | none => d.hub.world
  | some env => serverShutdown env (closePos env d)

def leaves (s : Shift) (files : Files) : Files :=
  match startUp s.env files.boot with
  | (.error _, w) => files.after w
  | (.ok (), w) =>
    match openPos s.env (runHub (Hub.start w) s.early) with
    | none => files.after w
    | some d => files.after (s.ended files.salesLog d)

end Shift

/-- The layout that a key saves. -/
def keySaves (k : PosKey) (pos : Pos) : Option StoreLayout :=
  if k.key = .char 's' ∧ pos.tab = .layout ∧ k.env.layoutSaved = true then some pos.layout else none

def DeskAction.saves (a : DeskAction) (d : Desk) : Option StoreLayout :=
  match a with
  | .key env typed pressed =>
    match d.stage with
    | .waiting => keySaves ⟨env, typed, pressed⟩ d.pos
    | _ => none
  | _ => none

namespace Shift

/-- The layout that is saved at the end. -/
def closes (s : Shift) (d : Desk) : Option StoreLayout :=
  s.closing.bind fun env => if env.layoutSaved then some d.pos.layout else none

/-- The layout that a shift saves last. -/
def saves (s : Shift) (files : Files) : Option StoreLayout :=
  (s.opened files).bind fun d =>
    (s.closes (runDesk files.salesLog d s.actions)).or
      (Cell.lastWrite (deskStep files.salesLog) DeskAction.saves d s.actions)

end Shift

/-- A label that is typed is one word. -/
def DeskAction.TypesWord : DeskAction → Prop
  | .key _ typed pressed => pressed = .char 'l' → typed.label = [] ∨ OneWord typed.label ∧ 0 ∉ typed.label
  | _ => True

/-! ## Floors -/

/-- What is to be seen of a layout. -/
structure Floor where
  gridRows : Int
  gridCols : Int
  tables : List TablePlacement
  deriving DecidableEq

def StoreLayout.floor (layout : StoreLayout) : Floor := ⟨layout.gridRows, layout.gridCols, layout.used⟩

/-- What a saved layout comes back as: the default layout stands in for one without tables. -/
def reopened (layout : StoreLayout) : Floor :=
  if layout.used = [] then layoutInitDefault.floor else layout.floor

/-- What the file is loaded as. -/
def floorOf (file : Option Bytes) : Option Floor := (layoutLoad file).map StoreLayout.floor

/-- A board that comes back from the file as it is. -/
structure Board.Savable (b : Board) : Prop extends b.Editable where
  labels : ∀ tp ∈ b.layout.used, OneWord tp.label.bytes

theorem StoreLayout.compact_active {layout : StoreLayout} (h : ∀ tp ∈ layout.used, tp.active = true) :
    uiPosLayoutCompact layout = layout := by
  have hactive : layout.used.filter (·.active) = layout.used := List.filter_eq_self.mpr h
  have hcount : (layout.used.filter (·.active)).length = layout.count := by
    rw [hactive, layout.length_used]
  have htables : layout.used.filter (·.active) ++
      layout.tables.drop (layout.used.filter (·.active)).length = layout.tables := by
    rw [hcount, hactive]
    exact List.take_append_drop _ _
  unfold uiPosLayoutCompact
  cases layout
  simp only at hcount htables ⊢
  congr

/-- What is saved comes back, but for a layout without tables. -/
theorem Board.Savable.floorOf {b : Board} (h : b.Savable) :
    ∃ text, layoutSave b.layout = some text ∧ floorOf (some text) = some (reopened b.layout) := by
  by_cases hnone : b.layout.used = []
  · -- the loader finds no tables and takes the default layout
    obtain ⟨layout, hread, hused, -, -⟩ :=
      layoutRead_savedLines h.toEditable (by rw [hnone]; exact fun _ => nofun)
    have hcount : layout.count = 0 := by
      rw [← layout.length_used, hused, hnone]
      rfl
    refine ⟨_, (layoutSave_eq h.toEditable).2, ?_⟩
    rw [TableOrder.floorOf, layoutLoad, Option.getD_some, hread, Option.map_some, layoutDefaults,
      if_pos hcount, reopened, if_pos hnone]
    rfl
  · obtain ⟨text, loaded, hsave, hload, hrows, hcols, hused⟩ := h.toEditable.reloads hnone h.labels
    refine ⟨text, hsave, ?_⟩
    rw [TableOrder.floorOf, hload, Option.map_some, reopened, if_neg hnone, StoreLayout.floor, hrows,
      hcols, hused]
    rfl

/-! ## The board in a shift -/

theorem oneWord_newTable (b : Board) (id : Int) : OneWord (b.newTable id).label.bytes := by
  have hnul : 0 ∉ lit "T" ++ fmtInt id := by
    rw [List.mem_append, not_or]
    exact ⟨by decide, not_mem_fmtInt (by decide) (by decide) id⟩
  refine oneWord_copy ⟨by simp [fmtInt_ne_nil], ?_⟩ hnul
  intro c hc
  have hT : ∀ c ∈ lit "T", isSpace c = false := by decide +kernel
  rcases List.mem_append.mp hc with hc | hc
  · exact hT c hc
  · exact not_space_of_mem_fmtInt hc

theorem Board.mem_used_edit {b : Board} {f : TablePlacement → TablePlacement} {tp' : TablePlacement}
    (h : tp' ∈ (b.edit f).layout.used) :
    tp' ∈ b.layout.used ∨ ∃ tp ∈ b.layout.used, tp' = f tp := by
  unfold edit at h
  split at h
  · next idx hidx =>
    obtain ⟨tp, hused, -⟩ := uiPosLayoutFindIndex_eq_some hidx
    split at h
    · next tp₀ htp₀ =>
      have hlt : idx < b.layout.count := by
        rw [← b.layout.length_used]
        exact (List.getElem?_eq_some_iff.mp hused).1
      rw [← StoreLayout.getElem?_used hlt, hused] at htp₀
      obtain rfl := Option.some.inj htp₀
      rw [StoreLayout.used_setSlot] at h
      rcases List.mem_or_eq_of_mem_set h with h | rfl
      · exact .inl h
      · exact .inr ⟨tp, List.mem_of_getElem? hused, rfl⟩
    · exact .inl h
  · exact .inl h

/-- The labels stay words, if one that is typed is a word. -/
theorem Board.oneWord_step {b : Board} (h : ∀ tp ∈ b.layout.used, OneWord tp.label.bytes) {op : BoardOp}
    (hop : ∀ text, op = .label text → text = [] ∨ OneWord text ∧ 0 ∉ text) :
    ∀ tp ∈ (b.step op).layout.used, OneWord tp.label.bytes := by
  intro tp' htp'
  cases op with
  | arrow key =>
    rw [step, arrow_layout] at htp'
    exact h tp' htp'
  | resize rows cols =>
    rw [step, resize] at htp'
    split at htp' <;> exact h tp' htp'
  | add =>
    rw [step] at htp'
    cases hadd : b.added with
    | none =>
      rw [hadd] at htp'
      exact h tp' htp'
    | some layout =>
      rw [hadd] at htp'
      obtain ⟨-, slot, grown, hslot, rfl⟩ := added_eq_some.mp hadd
      rcases mem_used_setSlot hslot htp' with hold | rfl
      · exact h tp' hold
      · exact oneWord_newTable b _
  | remove =>
    rw [step, remove] at htp'
    split at htp'
    · rw [StoreLayout.used_removeAt] at htp'
      exact h tp' (List.mem_of_mem_eraseIdx htp')
    · exact h tp' htp'
  | rezone =>
    rcases mem_used_edit htp' with hold | ⟨tp, htp, rfl⟩
    · exact h tp' hold
    · exact h tp htp
  | label text =>
    rw [step] at htp'
    split at htp'
    · exact h tp' htp'
    · next htext =>
      obtain ⟨hword, hnul⟩ := (hop text rfl).resolve_left htext
      rcases mem_used_edit htp' with hold | ⟨tp, htp, rfl⟩
      · exact h tp' hold
      · exact oneWord_copy hword hnul

theorem Board.Savable.step {b : Board} (h : b.Savable) {op : BoardOp}
    (hop : ∀ text, op = .label text → text = [] ∨ OneWord text ∧ 0 ∉ text) : (b.step op).Savable :=
  ⟨h.toEditable.step op, oneWord_step h.labels hop⟩

/-! ## The file in a shift -/

theorem layoutFile_hubStep (a : HubAction) (s : Hub) :
    (hubStep a s).world.layoutFile = s.world.layoutFile := by
  have hop (env : Env) (op : Op) := layoutFile_step op env s.world
  cases a with
  | pos env op =>
    simp only [hubStep]
    split
    · exact hop env op
    · rfl
  | connect fd =>
    simp only [hubStep]
    split <;> rfl
  | hello fd line =>
    simp only [hubStep]
    split
    · split <;> rfl
    · rfl
  | register fd =>
    simp only [hubStep]
    split <;> rfl
  | line fd env line =>
    simp only [hubStep]
    split
    · next kind own _ =>
      obtain ⟨-, hworld | ⟨b, -, hworld⟩⟩ := clientTurn_shared env s.world fd kind own line
      · exact congrArg World.layoutFile hworld
      · exact (congrArg World.layoutFile hworld).trans (hop b.1 b.2)
    · rfl
  | work fd env =>
    simp only [hubStep]
    split
    · exact hop env _
    · rfl
  | disconnect fd =>
    simp only [hubStep]
    split <;> rfl

theorem layoutFile_runHub (s : Hub) (as : List HubAction) :
    (runHub s as).world.layoutFile = s.world.layoutFile :=
  Runs.run_invariant (P := fun _ => True) (I := fun t : Hub => t.world.layoutFile = s.world.layoutFile)
    (fun a t _ ht => (layoutFile_hubStep a t).trans ht) rfl (fun _ _ => trivial)

theorem layoutFile_sync (w : World) (layout : StoreLayout) :
    (uiPosSyncMaxTables w layout).layoutFile = w.layoutFile := by
  unfold uiPosSyncMaxTables
  simp only
  split
  · rfl
  · split <;> rfl

theorem layoutFile_home (key : Key) (pos : Pos) (w : World) :
    (homeKeys .wrap key pos w).2.layoutFile = w.layoutFile := by
  unfold homeKeys
  simp only
  split <;> rfl

theorem layoutFile_payment (env : Env) (typed : Typed) (key : Key) (pos : Pos) (w : World) :
    (paymentKeys .wrap env typed key pos w).2.layoutFile = w.layoutFile := by
  have hpay (w : World) (oid : Int) :
      (serverPayOrder .wrap env w oid).2.layoutFile = w.layoutFile :=
    layoutFile_step (.payOrder oid) env w
  have hpaid (ids : List Int) (w : World) :
      (ids.foldl (fun w oid => (serverPayOrder .wrap env w oid).2) w).layoutFile = w.layoutFile := by
    induction ids generalizing w with
    | nil => rfl
    | cons oid ids ih => rw [List.foldl_cons, ih, hpay]
  unfold paymentKeys
  simp only
  split
  · split <;> rfl
  · rfl
  · rfl
  · split
    · exact hpay w _
    · rfl
  · split
    · exact hpaid _ w
    · rfl
  · rfl

theorem layoutFile_menu (env : Env) (typed : Typed) (key : Key) (pos : Pos) (w : World) :
    (menuKeys .wrap env typed key pos w).2.layoutFile = w.layoutFile := by
  have hstore (w : World) (r : Except Bytes MenuCatalog) :
      (storeMenu w r).layoutFile = w.layoutFile := by
    unfold storeMenu
    split <;> rfl
  have hsave (w : World) : (saveMenu env w).layoutFile = w.layoutFile := by
    unfold saveMenu
    split <;> rfl
  have hsync (w : World) : (broadcastMenuSync w).layoutFile = w.layoutFile := rfl
  unfold menuKeys
  simp only
  split <;> simp [hstore, hsave, hsync, layoutFile_saveConfig]

/-- Of the keys of the editor `s` is the one that writes the file. -/
theorem layoutFile_layout (env : Env) (typed : Typed) (key : Key) (pos : Pos) (w : World) :
    (layoutKeys .wrap env typed key pos w).2.layoutFile =
      ((if key = .char 's' ∧ env.layoutSaved = true then layoutSave pos.layout else none).map
        some).getD w.layoutFile := by
  by_cases hs : key = .char 's'
  · subst hs
    unfold layoutKeys
    simp only [moveCursor]
    cases hsave : layoutSave pos.layout with
    | none => simp [layoutFile_sync]
    | some text =>
      cases hok : env.layoutSaved with
      | false => simp [layoutFile_sync]
      | true => simp [layoutFile_saveConfig]
  · rw [if_neg (fun h => hs h.1)]
    unfold layoutKeys
    simp only
    split
    case h_8 => exact absurd rfl hs
    case h_2 =>
      split
      · rfl
      · split
        · rfl
        · exact layoutFile_sync w _
    all_goals first
      | rfl
      | (split <;> rfl)

theorem layoutFile_onTab {tab : PosTab} {block : Pos → World → Pos × World}
    (h : ∀ pos w, (block pos w).2.layoutFile = w.layoutFile) (s : Pos × World) :
    (onTab tab block s).2.layoutFile = s.2.layoutFile := by
  unfold onTab
  split
  · exact h s.1 s.2
  · rfl

theorem layoutFile_posStep (k : PosKey) (s : Pos × World) :
    (posStep k s).2.layoutFile =
      (((keySaves k s.1).bind layoutSave).map some).getD s.2.layoutFile := by
  obtain ⟨env, typed, key⟩ := k
  obtain ⟨pos, w⟩ := s
  unfold posStep handleKey keySaves
  simp only
  by_cases hs : key = .char 's'
  · subst hs
    rw [if_neg (by decide), show selectTab (.char 's') pos = pos from rfl]
    cases hq : pos.tab with
    | layout =>
      simp only [onTab, hq, reduceCtorEq, if_false, if_true]
      rw [layoutFile_layout]
      cases hok : env.layoutSaved <;> rfl
    | home =>
      obtain ⟨-, htab, -⟩ := homeKeys_board (.char 's') pos w
      have hfile := layoutFile_home (.char 's') pos w
      rw [show onTab .home (homeKeys .wrap (.char 's')) (pos, w) = homeKeys .wrap (.char 's') pos w
        from if_pos hq]
      generalize homeKeys .wrap (.char 's') pos w = t at htab hfile ⊢
      have hpaid := layoutFile_payment env typed (.char 's') t.1 t.2
      have hleaves := (paymentKeys_leaves env typed (.char 's') t.1 t.2).tab
      rcases htab with htab | htab
      · rw [hq] at htab
        simp [onTab, htab, hfile]
      · simp [onTab, htab, hleaves, hpaid, hfile]
    | payment =>
      have hfile := layoutFile_payment env typed (.char 's') pos w
      have hleaves := (paymentKeys_leaves env typed (.char 's') pos w).tab
      simp [onTab, hq, hleaves, hfile]
    | menu =>
      have hfile := layoutFile_menu env typed (.char 's') pos w
      have hleaves := (menuKeys_leaves env typed (.char 's') pos w).tab
      simp [onTab, hq, hleaves, hfile]
    | sales => simp [onTab, hq]
  · have hnone : (if key = .char 's' ∧ pos.tab = .layout ∧ env.layoutSaved = true then some pos.layout
        else none) = none := if_neg fun h => hs h.1
    rw [hnone]
    split
    · rfl
    · have hlayout (pos : Pos) (w : World) :
          (layoutKeys .wrap env typed key pos w).2.layoutFile = w.layoutFile := by
        rw [layoutFile_layout, if_neg (fun h => hs h.1)]
        rfl
      rw [layoutFile_onTab hlayout, layoutFile_onTab (layoutFile_menu env typed key),
        layoutFile_onTab (layoutFile_payment env typed key), layoutFile_onTab (layoutFile_home key)]
      rfl

/-! ## A step of a shift -/

theorem boardOp_label {k : PosKey} {pos : Pos} {text : Bytes} (h : boardOp k pos = .label text) :
    k.key = .char 'l' ∧ k.typed.label = text := by
  unfold boardOp layoutOp at h
  split at h
  · cases h
  · split at h
    all_goals first
      | exact ⟨‹_›, BoardOp.label.inj h⟩
      | cases h
  · cases h

theorem board_loopStep (log : Bytes) (rows cols now : Int) (d : Desk) :
    (loopStep log rows cols now d).pos.board = d.pos.board ∧
      (loopStep log rows cols now d).hub = d.hub := by
  unfold loopStep
  split
  · split
    · exact ⟨rfl, rfl⟩
    · unfold Desk.lookOrders
      simp only
      split <;> exact ⟨rfl, rfl⟩
  · unfold Desk.lookStaff
    simp only
    split <;> exact ⟨rfl, rfl⟩
  · unfold Desk.startDrawing
    simp only
    split <;> split <;> exact ⟨rfl, rfl⟩
  · exact ⟨rfl, rfl⟩
  · exact ⟨rfl, rfl⟩
  · exact ⟨rfl, rfl⟩

variable {log : Bytes}

theorem savable_deskStep {a : DeskAction} (ha : a.TypesWord) {d : Desk} (h : d.pos.board.Savable) :
    (deskStep log a d).pos.board.Savable := by
  cases a with
  | client a =>
    rw [deskStep, clientStep]
    split <;> exact h
  | loop rows cols now =>
    rw [deskStep, (board_loopStep log rows cols now d).1]
    exact h
  | key env typed pressed =>
    rw [deskStep, keyStep]
    split
    · show (posStep ⟨env, typed, pressed⟩ (d.pos, d.hub.world)).1.board.Savable
      rw [(posStep_board _ _).1]
      apply h.step
      intro text hlabel
      obtain ⟨hkey, rfl⟩ := boardOp_label hlabel
      exact ha hkey
    · exact h

/-- The file holds what was saved. -/
theorem floorOf_deskStep {a : DeskAction} {d : Desk} (h : d.pos.board.Savable) :
    floorOf (deskStep log a d).hub.world.layoutFile =
      ((a.saves d).map fun layout => some (reopened layout)).getD
        (floorOf d.hub.world.layoutFile) := by
  cases a with
  | client a =>
    show floorOf (clientStep a d).hub.world.layoutFile = floorOf d.hub.world.layoutFile
    rw [clientStep]
    split
    · rfl
    · exact congrArg floorOf (layoutFile_hubStep a d.hub)
  | loop rows cols now =>
    rw [deskStep, (board_loopStep log rows cols now d).2]
    rfl
  | key env typed pressed =>
    show floorOf (keyStep env typed pressed d).hub.world.layoutFile = _
    unfold keyStep DeskAction.saves
    cases d.stage with
    | waiting =>
      have hfile := layoutFile_posStep ⟨env, typed, pressed⟩ (d.pos, d.hub.world)
      refine (congrArg floorOf hfile).trans ?_
      simp only [keySaves]
      split
      · obtain ⟨text, hsave, hfloor⟩ := h.floorOf
        rw [Option.bind_some, show layoutSave d.pos.layout = some text from hsave]
        exact hfloor
      · rfl
    | _ => rfl

/-! ## One shift -/

theorem layoutFile_shutdown (env : Env) (w : World) :
    (serverShutdown env w).layoutFile = w.layoutFile := by
  unfold serverShutdown
  simp only
  split <;> exact layoutFile_saveConfig env _

theorem layoutFile_startUp (env : Env) (w : World) : (startUp env w).2.layoutFile = w.layoutFile := by
  have hload : (serverLoadPersistent w).2.layoutFile = w.layoutFile := by
    unfold serverLoadPersistent
    simp only
    split <;> rfl
  unfold startUp
  split
  · next hfailed =>
    rw [hfailed] at hload
    exact (layoutFile_shutdown env _).trans hload
  · next hok =>
    rw [hok] at hload
    exact hload

/-- A layout file that is created holds what would have been loaded without it. -/
theorem floorOf_ensure (env : Env) (w : World) :
    floorOf (ensureLayoutFile env w).layoutFile = floorOf w.layoutFile := by
  unfold ensureLayoutFile
  split
  · next text hnone hsave _ =>
    rw [hnone, floorOf, floorOf, layoutLoad, layoutLoad, hsave]
    rfl
  · rfl

/-- The POS is open with this layout, and the file has it. -/
structure OpensWith (layout : StoreLayout) (d : Desk) : Prop where
  shown : d.pos.layout = layout
  savable : d.pos.board.Savable
  file : floorOf d.hub.world.layoutFile = some layout.floor

theorem openPos_opens (env : Env) {hub : Hub} {layout : StoreLayout}
    (h : layoutLoad hub.world.layoutFile = some layout) :
    ∃ d, openPos env hub = some d ∧ OpensWith layout d := by
  have hloaded := layoutLoad_loaded h
  have hcompact : uiPosLayoutCompact layout = layout :=
    StoreLayout.compact_active fun tp htp => (hloaded.tables tp htp).active
  refine ⟨_, by rw [openPos, h]; rfl, ?_⟩
  simp only [hcompact]
  refine ⟨rfl, ⟨editable_run hloaded hub.world [], fun tp htp => (hloaded.tables tp htp).label⟩, ?_⟩
  show floorOf (serverSaveConfig env _).layoutFile = _
  rw [layoutFile_saveConfig, layoutFile_sync, floorOf_ensure, floorOf, h, Option.map_some]

/-- The actions of the POS, from a layout that comes back. -/
theorem floorOf_runDesk (log : Bytes) {d : Desk} (hd : d.pos.board.Savable) {as : List DeskAction}
    (has : ∀ a ∈ as, a.TypesWord) :
    (runDesk log d as).pos.board.Savable ∧ floorOf (runDesk log d as).hub.world.layoutFile =
      ((Cell.lastWrite (deskStep log) DeskAction.saves d as).map
        fun layout => some (reopened layout)).getD (floorOf d.hub.world.layoutFile) := by
  have hstep (a : DeskAction) (d : Desk) (ha : a.TypesWord) (hd : d.pos.board.Savable) :
      (deskStep log a d).pos.board.Savable := savable_deskStep ha hd
  refine ⟨Runs.run_invariant hstep hd has, ?_⟩
  rw [← Cell.lastWrite_map]
  exact Cell.run_read_of (fun d : Desk => floorOf d.hub.world.layoutFile) hstep
    (fun a d _ hd => floorOf_deskStep hd) hd has

theorem floorOf_ended (s : Shift) {d : Desk} (h : (runDesk log d s.actions).pos.board.Savable) :
    floorOf (s.ended log d).layoutFile =
      ((s.closes (runDesk log d s.actions)).map fun layout => some (reopened layout)).getD
        (floorOf (runDesk log d s.actions).hub.world.layoutFile) := by
  unfold Shift.ended Shift.closes
  simp only
  cases s.closing with
  | none => rfl
  | some env =>
    obtain ⟨text, hsave, hfloor⟩ := h.floorOf
    have hsave : layoutSave (runDesk log d s.actions).pos.layout = some text := hsave
    simp only [Option.bind_some]
    rw [layoutFile_shutdown, closePos, layoutFile_saveConfig, layoutFile_sync, hsave]
    cases env.layoutSaved with
    | false => rfl
    | true => exact hfloor

/-- A shift does not start, or the POS opens with what is loaded. -/
theorem Shift.opened_cases (s : Shift) {files : Files} {layout : StoreLayout}
    (h : layoutLoad files.layoutFile = some layout) :
    (failed (startUp s.env files.boot).1 = true ∧ s.opened files = none ∧
      (s.leaves files).layoutFile = files.layoutFile) ∨
    ∃ d, s.opened files = some d ∧ OpensWith layout d ∧
      s.leaves files = files.after (s.ended files.salesLog d) := by
  have hstart := layoutFile_startUp s.env files.boot
  unfold opened leaves
  rcases hup : startUp s.env files.boot with ⟨e | ⟨⟨⟩⟩, w⟩ <;> rw [hup] at hstart
  · exact .inl ⟨rfl, rfl, hstart⟩
  · have hload : layoutLoad (runHub (Hub.start w) s.early).world.layoutFile = some layout := by
      rw [layoutFile_runHub]
      exact (congrArg layoutLoad hstart).trans h
    obtain ⟨d, hopen, hd⟩ := openPos_opens s.env hload
    exact .inr ⟨d, hopen, hd, by simp only [hopen]⟩

theorem Shift.floorOf_leaves {s : Shift} (hs : ∀ a ∈ s.actions, a.TypesWord) {files : Files}
    (hfiles : (floorOf files.layoutFile).isSome) :
    floorOf (s.leaves files).layoutFile =
      ((s.saves files).map fun layout => some (reopened layout)).getD (floorOf files.layoutFile) := by
  rw [floorOf, Option.isSome_map] at hfiles
  obtain ⟨layout, hload⟩ := Option.isSome_iff_exists.mp hfiles
  rcases s.opened_cases hload with ⟨-, hnone, hfile⟩ | ⟨d, hopen, hd, hleaves⟩
  · rw [saves, hnone, hfile]
    rfl
  · obtain ⟨hsavable, hrun⟩ := floorOf_runDesk files.salesLog hd.savable hs
    rw [saves, hopen, hleaves, Option.bind_some]
    refine (floorOf_ended s hsavable).trans ?_
    rw [hrun, hd.file, floorOf, hload]
    cases s.closes (runDesk files.salesLog d s.actions) <;> rfl

/-! ## Many shifts -/

/-- However the shifts before ended, the POS opens with the layout that was saved last, or with the one
there was at first. -/
theorem layout_survives {files : Files} {first : StoreLayout}
    (hfirst : layoutLoad files.layoutFile = some first) {shifts : List Shift}
    (hwords : ∀ s ∈ shifts, ∀ a ∈ s.actions, a.TypesWord) (next : Shift)
    (hnext : failed (startUp next.env (Runs.run Shift.leaves files shifts).boot).1 = false) :
    ∃ d, next.opened (Runs.run Shift.leaves files shifts) = some d ∧ d.pos.layout.floor =
      ((Cell.lastWrite Shift.leaves Shift.saves files shifts).map reopened).getD first.floor := by
  have hfiles : floorOf files.layoutFile = some first.floor := by
    rw [floorOf, hfirst, Option.map_some]
  have hrun := Cell.run_read_of (P := fun s : Shift => ∀ a ∈ s.actions, a.TypesWord)
    (I := fun files : Files => (floorOf files.layoutFile).isSome)
    (fun files : Files => floorOf files.layoutFile)
    (fun s files hs hfiles => by
      rw [Shift.floorOf_leaves hs hfiles]
      cases s.saves files with
      | none => exact hfiles
      | some layout => rfl)
    (fun s files hs hfiles => Shift.floorOf_leaves hs hfiles) (by rw [hfiles]; rfl) hwords
  rw [Cell.lastWrite_map, hfiles] at hrun
  generalize Runs.run Shift.leaves files shifts = left at hnext hrun ⊢
  generalize Cell.lastWrite Shift.leaves Shift.saves files shifts = saved at hrun ⊢
  have hleft : floorOf left.layoutFile = some ((saved.map reopened).getD first.floor) := by
    rw [hrun]
    cases saved <;> rfl
  obtain ⟨layout, hload, hfloor⟩ := Option.map_eq_some_iff.mp hleft
  rcases next.opened_cases hload with ⟨hfails, -⟩ | ⟨d, hopen, hd, -⟩
  · rw [hfails] at hnext
    cases hnext
  · exact ⟨d, hopen, by rw [hd.shown, hfloor]⟩

/-- The loop from one key to the next, on a terminal too small to draw on. -/
def nextKey (typed : Typed) (key : Key) : List DeskAction :=
  List.replicate 4 (.loop 0 0 0) ++ [.key (Env.fair 0) typed key]

/-- Table 1 is renamed and the layout saved; then a table is deleted, and the program crashes. -/
def renamedShift : Shift where
  env := Env.fair 0
  early := []
  actions := nextKey Typed.nothing (.f 5) ++
    nextKey { Typed.nothing with label := lit "창가" } (.char 'l') ++
    nextKey Typed.nothing (.char 's') ++ nextKey Typed.nothing (.char 'd')
  closing := none

def noFiles : Files := ⟨none, none, none, []⟩

instance (a : DeskAction) : Decidable a.TypesWord :=
  match a with
  | .key _ typed pressed =>
    decidable_of_iff (pressed = .char 'l' → typed.label = [] ∨ (typed.label ≠ [] ∧
        typed.label.all (!isSpace ·) = true) ∧ 0 ∉ typed.label)
      ⟨fun h hl => (h hl).imp_right fun ⟨⟨hne, hs⟩, hnul⟩ => ⟨⟨hne, by simpa using hs⟩, hnul⟩,
        fun h hl => (h hl).imp_right fun ⟨hw, hnul⟩ =>
          ⟨⟨hw.ne_nil, by simpa using hw.noSpace⟩, hnul⟩⟩
  | .client _ => isTrue trivial
  | .loop _ _ _ => isTrue trivial

theorem layout_survives_renamed :
    let files := Runs.run Shift.leaves noFiles [renamedShift]
    let next : Shift := ⟨Env.fair 1, [], [], none⟩
    ∃ d, next.opened files = some d ∧ d.pos.layout.floor =
      ((Cell.lastWrite Shift.leaves Shift.saves noFiles [renamedShift]).map reopened).getD
        layoutInitDefault.floor := by
  intro files next
  have hfirst : layoutLoad noFiles.layoutFile = some layoutInitDefault := default_reloads
  have hwords : ∀ s ∈ [renamedShift], ∀ a ∈ s.actions, a.TypesWord := by decide +kernel
  have hnext : failed (startUp next.env files.boot).1 = false := by decide +kernel
  exact layout_survives hfirst hwords next hnext

end TableOrder
