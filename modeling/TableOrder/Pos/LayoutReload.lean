import TableOrder.Pos.Editor
import TableOrder.Pos.LayoutFile
import TableOrder.Storage

/-!
# Saving and loading a layout

`layout_save` writes a label as it is, and `layout_load` reads one word of it. So of the layouts the
editor can make, those are read back as they were whose labels are one word each
(`layoutReloads_iff`).
-/

namespace TableOrder

open CLib

/-! ## What is loaded -/

/-- What the fields can be after any bytes. -/
structure TableFields.Ok (f : TableFields) : Prop where
  label : f.label = [] ∨ OneWord f.label ∧ 0 ∉ f.label
  row : FitsInt f.row
  col : FitsInt f.col

theorem readField_ok {f : TableFields} (h : f.Ok) {p : Bytes} (hnul : 0 ∉ p) : (readField p f).Ok := by
  unfold readField
  split
  · exact ⟨h.label, h.row, h.col⟩
  · split
    · exact ⟨h.label, getD_scanInt_fits h.row _, h.col⟩
    · split
      · exact ⟨h.label, h.row, getD_scanInt_fits h.col _⟩
      · split
        · refine ⟨?_, h.row, h.col⟩
          cases hword : scanWord 15 (p.drop 6) with
          | none => exact h.label
          | some w =>
            refine .inr ⟨scanWord_word (by decide) hword, fun hzero => hnul ?_⟩
            exact List.mem_of_mem_drop (scanWord_subset hword hzero)
        · exact h

theorem scanFields_ok {mode : ScanMode} {m : Bytes} {f f' : TableFields} (h : f.Ok)
    (hf' : scanFields mode m f = some f') : f'.Ok := by
  induction m generalizing mode f with
  | nil => cases mode <;> cases hf'
  | cons b m ih =>
    cases mode with
    | find =>
      rw [scanFields] at hf'
      split at hf'
      · cases hf'
        exact h
      · split at hf' <;> exact ih h hf'
    | skip =>
      rw [scanFields] at hf'
      split at hf'
      · exact ih h hf'
      · exact ih (readField_ok h (nul_not_mem_cString _)) hf'

/-- A table as the loader stores it. -/
structure TablePlacement.Loaded (tp : TablePlacement) : Prop where
  active : tp.active = true
  tableId : FitsInt tp.tableId
  row : FitsInt tp.row
  col : FitsInt tp.col
  label : OneWord tp.label.bytes

theorem oneWord_copy {w : Bytes} (hw : OneWord w) (hnul : 0 ∉ w) :
    OneWord (CStr.copy MAX_TABLE_LABEL w).bytes := by
  have hcopy : (CStr.copy MAX_TABLE_LABEL w).bytes = w.take 15 := by
    show clip MAX_TABLE_LABEL (w.takeWhile (· ≠ 0)) = _
    rw [takeWhile_noNul hnul]
    rfl
  rw [hcopy]
  exact ⟨by simp [hw.ne_nil], fun b hb => hw.noSpace b (List.mem_of_mem_take hb)⟩

theorem placementOf_loaded {line rest : Bytes} {tp : TablePlacement}
    (h : placementOf line rest = some tp) : tp.Loaded := by
  obtain ⟨f, hf, rfl⟩ := Option.map_eq_some_iff.mp h
  have hok := scanFields_ok ⟨.inl rfl, by decide, by decide⟩ hf
  have hid : FitsInt ((scanInt (line.drop 6)).getD 0) := getD_scanInt_fits (by decide) _
  refine ⟨rfl, hid, hok.row, hok.col, ?_⟩
  generalize (scanInt (line.drop 6)).getD 0 = id
  show OneWord (CStr.copy MAX_TABLE_LABEL (if f.label = [] then lit "T" ++ fmtInt id else f.label)).bytes
  split
  · -- the fallback label has no white space
    have hnul : 0 ∉ lit "T" ++ fmtInt id := by
      rw [List.mem_append, not_or]
      exact ⟨by decide, not_mem_fmtInt (by decide) (by decide) id⟩
    refine oneWord_copy ⟨by simp [fmtInt_ne_nil], ?_⟩ hnul
    intro b hb
    have hT : ∀ b ∈ lit "T", isSpace b = false := by decide +kernel
    rcases List.mem_append.mp hb with hb | hb
    · exact hT b hb
    · exact not_space_of_mem_fmtInt hb
  · next hne => exact oneWord_copy (hok.label.resolve_left hne).1 (hok.label.resolve_left hne).2

/-- A layout as the loader returns it. -/
structure StoreLayout.Loaded (layout : StoreLayout) : Prop where
  tables : ∀ tp ∈ layout.used, tp.Loaded
  idsFit : ∀ tp ∈ layout.tables, FitsInt tp.tableId
  grid : Board.Accepts layout.gridRows layout.gridCols

instance (tp : TablePlacement) : Decidable tp.Loaded :=
  decidable_of_iff (tp.active = true ∧ FitsInt tp.tableId ∧ FitsInt tp.row ∧ FitsInt tp.col ∧
      tp.label.bytes ≠ [] ∧ tp.label.bytes.all (!isSpace ·) = true)
    ⟨fun ⟨ha, hi, hr, hc, hn, hs⟩ => ⟨ha, hi, hr, hc, hn, by simpa using hs⟩,
      fun ⟨ha, hi, hr, hc, hn, hs⟩ => ⟨ha, hi, hr, hc, hn, by simpa using hs⟩⟩

theorem default_loaded : layoutInitDefault.Loaded :=
  ⟨by decide +kernel, by decide +kernel, by decide⟩

theorem loadLine_idsFit {layout layout' : StoreLayout} {line : Bytes × Bytes}
    (h : ∀ tp ∈ layout.tables, FitsInt tp.tableId) (hload : loadLine layout line = some layout') :
    ∀ tp ∈ layout'.tables, FitsInt tp.tableId := by
  cases htable : isTableLine line.1 with
  | false =>
    obtain ⟨next, hnext, -, -, htables⟩ := loadLine_other htable layout
    rw [hload] at hnext
    cases hnext
    rw [htables]
    exact h
  | true =>
    rw [loadLine_table htable] at hload
    split at hload
    · obtain ⟨tp, htp, rfl⟩ := Option.map_eq_some_iff.mp hload
      intro new hnew
      rcases List.mem_or_eq_of_mem_set hnew with hnew | rfl
      · exact h new hnew
      · exact (placementOf_loaded htp).tableId
    · cases hload
      exact h

theorem foldlM_idsFit {lines : List (Bytes × Bytes)} {layout layout' : StoreLayout}
    (h : ∀ tp ∈ layout.tables, FitsInt tp.tableId) (hload : lines.foldlM loadLine layout = some layout') :
    ∀ tp ∈ layout'.tables, FitsInt tp.tableId := by
  induction lines generalizing layout with
  | nil =>
    cases hload
    exact h
  | cons line lines ih =>
    obtain ⟨next, hnext, hload⟩ := Option.bind_eq_some_iff.mp hload
    exact ih (loadLine_idsFit h hnext) hload

theorem layoutLoad_loaded {file : Option Bytes} {layout : StoreLayout}
    (h : layoutLoad file = some layout) : layout.Loaded := by
  obtain ⟨read, hread, rfl⟩ := Option.map_eq_some_iff.mp h
  have hinit : ∀ tp ∈ layoutInit.tables, FitsInt tp.tableId := by decide +kernel
  have hids := foldlM_idsFit hinit hread
  have hused := layoutRead_used hread
  have htables : ∀ tp ∈ read.used, tp.Loaded := by
    intro tp htp
    obtain ⟨l, -, hplaced⟩ := exists_zip_of_forall₂ hused.flip htp
    exact placementOf_loaded hplaced
  unfold layoutDefaults
  split
  · exact default_loaded
  · refine ⟨htables, hids, ?_⟩
    have hrows : (MAX_GRID_ROWS : Int) = 24 := rfl
    have hcols : (MAX_GRID_COLS : Int) = 40 := rfl
    unfold Board.Accepts
    dsimp only
    split <;> split <;> omega

/-! ## What the editor can produce -/

/-- A board from which the file can be written and read: all of it but the labels. -/
structure Board.Editable (b : Board) : Prop where
  tables : ∀ tp ∈ b.layout.used, tp.active = true ∧ FitsInt tp.row ∧ FitsInt tp.col
  idsFit : b.IdsFit
  grid : Accepts b.layout.gridRows b.layout.gridCols
  cursor : Inside b.layout b.row b.col

theorem Board.Accepts.fits {rows cols : Int} (h : Accepts rows cols) : FitsInt rows ∧ FitsInt cols := by
  have hrows : (MAX_GRID_ROWS : Int) = 24 := rfl
  have hcols : (MAX_GRID_COLS : Int) = 40 := rfl
  unfold Board.Accepts at h
  unfold FitsInt
  omega

theorem Board.Accepts.cell_fits {layout : StoreLayout} {row col : Int}
    (hgrid : Accepts layout.gridRows layout.gridCols) (h : Inside layout row col) :
    FitsInt row ∧ FitsInt col := by
  obtain ⟨hrows, hcols⟩ := hgrid.fits
  obtain ⟨hrow, hrow', hcol, hcol'⟩ := h
  unfold FitsInt at hrows hcols ⊢
  omega

theorem Board.grid_step {b : Board} (h : Accepts b.layout.gridRows b.layout.gridCols) (op : BoardOp) :
    Accepts (b.step op).layout.gridRows (b.step op).layout.gridCols := by
  rcases b.step_cases op with ⟨key, hstep⟩ | ⟨rows, cols, rfl, hok⟩ | ⟨i, tp, tp', -, -, hstep⟩ |
    ⟨i, hstep⟩ | ⟨layout, -, hadded, hstep⟩
  · rw [hstep, arrow_layout]
    exact h
  · rw [step, resize, if_pos hok]
    exact hok
  · rw [hstep]
    exact h
  · rw [hstep, uiPosLayoutRemoveAt]
    split <;> exact h
  · rw [hstep]
    obtain ⟨-, slot, grown, hslot, rfl⟩ := added_eq_some.mp hadded
    obtain ⟨-, hrows, hcols⟩ := StoreLayout.alloc_same hslot
    show Accepts grown.gridRows grown.gridCols
    rw [hrows, hcols]
    exact h

theorem Board.Editable.step {b : Board} (h : b.Editable) (op : BoardOp) : (b.step op).Editable where
  tables := by
    intro tp' htp'
    rcases mem_used_step htp' with ⟨tp, htp, hsame⟩ | ⟨-, -, -, -, -, rfl⟩
    · rw [hsame.active, hsame.row, hsame.col]
      exact h.tables tp htp
    · exact ⟨rfl, h.grid.cell_fits h.cursor⟩
  idsFit := h.idsFit.step op
  grid := grid_step h.grid op
  cursor := step_cursor h.cursor op

theorem editable_run {layout : StoreLayout} (h : layout.Loaded) (w : World) (ks : List PosKey) :
    (runPos (Pos.start layout, w) ks).1.board.Editable := by
  have hstart : (Pos.start layout).board.Editable := by
    refine ⟨fun tp htp => ?_, h.idsFit, h.grid, ?_⟩
    · have htp := h.tables tp htp
      exact ⟨htp.active, htp.row, htp.col⟩
    · obtain ⟨hrows, -, hcols, -⟩ := h.grid
      exact ⟨le_rfl, hrows, le_rfl, hcols⟩
  refine Runs.run_invariant (P := fun _ => True) (I := fun s : Pos × World => s.1.board.Editable)
    (fun k s _ hs => ?_) hstart (fun _ _ => trivial)
  rw [(posStep_board k s).1]
  exact hs.step _

/-! ## The lines that are saved -/

/-- A line without its newline. -/
def layoutBody (tp : TablePlacement) : Bytes :=
  lit "table=" ++ fmtInt tp.tableId ++ lit " zone=" ++ layoutZoneName tp.zone ++ lit " row=" ++
    fmtInt tp.row ++ lit " col=" ++ fmtInt tp.col ++ lit " label=" ++ tp.label.bytes

/-- The three lines before the tables. -/
def headerLines (layout : StoreLayout) : List Bytes :=
  [lit "# POS table layout (grid + placements)", lit "grid_rows=" ++ fmtInt layout.gridRows,
    lit "grid_cols=" ++ fmtInt layout.gridCols]

/-- What ends a field: a blank, or the terminator. -/
def EndsField (m : Bytes) : Prop := ∀ b r, cString m = b :: r → b = ch ' '

theorem EndsField.blank (m : Bytes) : EndsField (ch ' ' :: m) := by
  intro b r h
  rw [cString, List.takeWhile_cons_of_pos (by decide)] at h
  exact (List.cons.inj h).1.symm

theorem EndsField.nul (m : Bytes) : EndsField (0 :: m) := by
  intro b r h
  rw [cString_nul] at h
  cases h

theorem EndsField.number {m : Bytes} (h : EndsField m) : EndsNumber (cString m) := by
  intro b r hbr
  rw [h b r hbr]
  decide

theorem EndsField.space {m : Bytes} (h : EndsField m) : ∀ b r, cString m = b :: r → isSpace b = true := by
  intro b r hbr
  rw [h b r hbr]
  decide

theorem readField_zone {w : Bytes} (hw : OneWord w) (hlen : w.length ≤ 15) {m : Bytes}
    (hm : EndsField m) (f : TableFields) :
    readField (lit "zone=" ++ w ++ cString m) f = { f with zone := w } := by
  have hread := scanWord_append hw hlen hm.space
  rw [List.append_assoc]
  show { f with zone := (scanWord 15 (w ++ cString m)).getD f.zone } = _
  rw [hread]
  rfl

theorem readField_row {n : Int} (hn : FitsInt n) {m : Bytes} (hm : EndsField m) (f : TableFields) :
    readField (lit "row=" ++ fmtInt n ++ cString m) f = { f with row := n } := by
  have hread := scanInt_fmtInt_append hn hm.number
  rw [List.append_assoc]
  show { f with row := (scanInt (fmtInt n ++ cString m)).getD f.row } = _
  rw [hread]
  rfl

theorem readField_col {n : Int} (hn : FitsInt n) {m : Bytes} (hm : EndsField m) (f : TableFields) :
    readField (lit "col=" ++ fmtInt n ++ cString m) f = { f with col := n } := by
  have hread := scanInt_fmtInt_append hn hm.number
  rw [List.append_assoc]
  show { f with col := (scanInt (fmtInt n ++ cString m)).getD f.col } = _
  rw [hread]
  rfl

theorem readField_label {w : Bytes} (hw : OneWord w) (hlen : w.length ≤ 15) {m : Bytes}
    (hm : EndsField m) (f : TableFields) :
    readField (lit "label=" ++ w ++ cString m) f = { f with label := w } := by
  have hread := scanWord_append hw hlen hm.space
  rw [List.append_assoc]
  show { f with label := (scanWord 15 (w ++ cString m)).getD f.label } = _
  rw [hread]
  rfl

/-- The scan goes from blank to blank. -/
theorem scanFields_find {t : Bytes} (hblank : ch ' ' ∉ t) (hnul : 0 ∉ t) (m : Bytes) (f : TableFields) :
    scanFields .find (t ++ m) f = scanFields .find m f := by
  induction t with
  | nil => rfl
  | cons b t ih =>
    obtain ⟨hb, hblank⟩ := not_or.mp (mt List.mem_cons.mpr hblank)
    obtain ⟨hz, hnul⟩ := not_or.mp (mt List.mem_cons.mpr hnul)
    rw [List.cons_append, scanFields, if_neg (Ne.symm hz), if_neg (Ne.symm hb), ih hblank hnul]

/-- A field behind a blank is read. -/
theorem scanFields_field {key v : Bytes} (hkey : key ≠ [] ∧ ch ' ' ∉ key ∧ 0 ∉ key)
    (hv : ch ' ' ∉ v ∧ 0 ∉ v) (m : Bytes) (f : TableFields) :
    scanFields .find (ch ' ' :: (key ++ v ++ m)) f =
      scanFields .find m (readField (key ++ v ++ cString m) f) := by
  obtain ⟨hne, hblank, hnul⟩ := hkey
  obtain ⟨b, key, rfl⟩ := List.exists_cons_of_ne_nil hne
  obtain ⟨hb, hblank⟩ := not_or.mp (mt List.mem_cons.mpr hblank)
  obtain ⟨hz, hnul'⟩ := not_or.mp (mt List.mem_cons.mpr hnul)
  have htext : ch ' ' ∉ key ++ v ∧ 0 ∉ key ++ v := by
    simp only [List.mem_append, not_or]
    exact ⟨⟨hblank, hv.1⟩, hnul', hv.2⟩
  have hread : cString (b :: key ++ v ++ m) = b :: key ++ v ++ cString m := by
    refine cString_append ?_ m
    simp only [List.mem_append, not_or]
    exact ⟨hnul, hv.2⟩
  rw [scanFields, if_neg (by decide), if_pos rfl, ← hread]
  simp only [List.cons_append]
  rw [scanFields, if_neg (Ne.symm hb), scanFields_find htext.1 htext.2]

theorem layoutZone_name (zone : TableZone) : layoutZoneFromString (layoutZoneName zone) = zone := by
  cases zone <;> decide

theorem oneWord_zone (zone : TableZone) : OneWord (layoutZoneName zone) ∧
    (layoutZoneName zone).length ≤ 15 ∧ ch ' ' ∉ layoutZoneName zone ∧ 0 ∉ layoutZoneName zone := by
  cases zone <;> exact ⟨⟨by decide, by decide +kernel⟩, by decide, by decide, by decide⟩

/-- The fields of a line behind its key. -/
theorem drop_layoutBody (tp : TablePlacement) (m : Bytes) :
    (layoutBody tp).drop 6 ++ m = fmtInt tp.tableId ++
      (ch ' ' :: ((lit "zone=" ++ layoutZoneName tp.zone) ++
      (ch ' ' :: ((lit "row=" ++ fmtInt tp.row) ++
      (ch ' ' :: ((lit "col=" ++ fmtInt tp.col) ++
      (ch ' ' :: ((lit "label=" ++ tp.label.bytes) ++ m)))))))) := by
  have hzone : lit " zone=" = ch ' ' :: lit "zone=" := by decide
  have hrow : lit " row=" = ch ' ' :: lit "row=" := by decide
  have hcol : lit " col=" = ch ' ' :: lit "col=" := by decide
  have hlabel : lit " label=" = ch ' ' :: lit "label=" := by decide
  have hkey (v : Bytes) : (lit "table=" ++ v).drop 6 = v := rfl
  unfold layoutBody
  rw [hzone, hrow, hcol, hlabel]
  simp only [List.append_assoc, List.cons_append]
  rw [hkey]
  simp only [List.append_assoc, List.cons_append]

theorem placementOf_body {tp : TablePlacement} (h : tp.Loaded) (rest : Bytes) :
    placementOf (layoutBody tp) rest = some tp := by
  have hnum (n : Int) : ch ' ' ∉ fmtInt n ∧ 0 ∉ fmtInt n :=
    ⟨not_mem_fmtInt (by decide) (by decide) n, not_mem_fmtInt (by decide) (by decide) n⟩
  obtain ⟨hzone, hzlen, hzblank, hznul⟩ := oneWord_zone tp.zone
  have hlblank : ch ' ' ∉ tp.label.bytes := h.label.not_mem (by decide)
  have hid : scanInt ((layoutBody tp).drop 6) = some tp.tableId := by
    rw [← List.append_nil ((layoutBody tp).drop 6), drop_layoutBody]
    exact scanInt_fmtInt_append h.tableId (.cons (by decide) _)
  have hlen : tp.label.bytes.length ≤ 15 := Nat.le_of_lt_succ tp.label.fits
  rw [placementOf, hid, drop_layoutBody, scanFields_find (hnum _).1 (hnum _).2,
    scanFields_field (by decide) ⟨hzblank, hznul⟩, readField_zone hzone hzlen (.blank _),
    scanFields_field (by decide) (hnum _), readField_row h.row (.blank _),
    scanFields_field (by decide) (hnum _), readField_col h.col (.blank _),
    scanFields_field (by decide) ⟨hlblank, tp.label.noNul⟩, readField_label h.label hlen (.nul _)]
  show some (placementFrom tp.tableId ⟨layoutZoneName tp.zone, tp.label.bytes, tp.row, tp.col⟩) = _
  rw [placementFrom, layoutZone_name, if_neg h.label.ne_nil, CStr.copy_self, ← h.active]

/-! ## The whole file -/

/-- The lines `layout_save` writes. -/
def savedLines (layout : StoreLayout) : List Bytes := headerLines layout ++ layout.used.map layoutBody

theorem length_layoutLine_le {tp : TablePlacement} (hid : FitsInt tp.tableId) (hrow : FitsInt tp.row)
    (hcol : FitsInt tp.col) : (layoutLine tp).length ≤ 85 := by
  have hidlen := length_fmtInt_le hid
  have hrowlen := length_fmtInt_le hrow
  have hcollen := length_fmtInt_le hcol
  have hzone : (layoutZoneName tp.zone).length ≤ 7 := by cases tp.zone <;> decide
  have hlabel : tp.label.bytes.length ≤ 15 := Nat.le_of_lt_succ tp.label.fits
  have hkeys : (lit "table=").length = 6 ∧ (lit " zone=").length = 6 ∧ (lit " row=").length = 5 ∧
      (lit " col=").length = 5 ∧ (lit " label=").length = 7 ∧ (lit "\n").length = 1 := by decide
  unfold layoutLine
  simp only [List.length_append]
  omega

/-- The loop of `layout_save` writes every table, when there is room for the lines. -/
theorem foldlM_layoutLine {tps : List TablePlacement} (hlen : ∀ tp ∈ tps, (layoutLine tp).length ≤ 85)
    (body : Bytes) (hroom : body.length + 85 * tps.length < 32768) :
    tps.foldlM (fun body tp =>
      let line := layoutLine tp
      if 32768 ≤ body.length + line.length then none else some (body ++ line)) body =
      some (body ++ tps.flatMap layoutLine) := by
  induction tps generalizing body with
  | nil =>
    rw [List.flatMap_nil, List.append_nil]
    rfl
  | cons tp tps ih =>
    have hline := hlen tp List.mem_cons_self
    rw [List.length_cons] at hroom
    rw [List.foldlM_cons, List.flatMap_cons, ← List.append_assoc]
    simp only
    rw [if_neg (by omega)]
    exact ih (fun t ht => hlen t (List.mem_cons_of_mem _ ht)) (body ++ layoutLine tp)
      (by rw [List.length_append]; omega)

/-- The text of the first lines. -/
theorem layoutHeader_eq (layout : StoreLayout) :
    lit "# POS table layout (grid + placements)\ngrid_rows=" ++ fmtInt layout.gridRows ++
      lit "\ngrid_cols=" ++ fmtInt layout.gridCols ++ lit "\n" =
      (headerLines layout).flatMap (· ++ [ch '\n']) := by
  have hrows : lit "# POS table layout (grid + placements)\ngrid_rows=" =
      lit "# POS table layout (grid + placements)" ++ [ch '\n'] ++ lit "grid_rows=" := by decide
  have hcols : lit "\ngrid_cols=" = [ch '\n'] ++ lit "grid_cols=" := by decide
  have hend : lit "\n" = [ch '\n'] := by decide
  rw [hrows, hcols, hend, headerLines]
  simp only [List.flatMap_cons, List.flatMap_nil, List.append_assoc, List.append_nil]

/-- A layout of the editor is saved, and the file is short enough for the loader. -/
theorem layoutSave_eq {b : Board} (h : b.Editable) :
    ((savedLines b.layout).flatMap (· ++ [ch '\n'])).length < 32768 ∧
      layoutSave b.layout = some ((savedLines b.layout).flatMap (· ++ [ch '\n'])) := by
  have hactive : b.layout.used.filter (·.active) = b.layout.used :=
    List.filter_eq_self.mpr fun tp htp => (h.tables tp htp).1
  have hlen : ∀ tp ∈ b.layout.used, (layoutLine tp).length ≤ 85 := by
    intro tp htp
    obtain ⟨-, hrow, hcol⟩ := h.tables tp htp
    exact length_layoutLine_le (h.idsFit tp (List.mem_of_mem_take htp)) hrow hcol
  have hcount : b.layout.used.length ≤ 64 := by
    rw [b.layout.length_used]
    exact b.layout.bound
  let header := (headerLines b.layout).flatMap (· ++ [ch '\n'])
  have hheader : header.length < 85 := by
    obtain ⟨hrows, hcols⟩ := Board.Accepts.fits h.grid
    have hrowslen := length_fmtInt_le hrows
    have hcolslen := length_fmtInt_le hcols
    have hkeys : (lit "# POS table layout (grid + placements)").length = 38 ∧
        (lit "grid_rows=").length = 10 ∧ (lit "grid_cols=").length = 10 := by decide
    simp only [header, headerLines, List.flatMap_cons, List.flatMap_nil, List.length_append,
      List.length_singleton, List.length_nil]
    omega
  have hsaved : (savedLines b.layout).flatMap (· ++ [ch '\n']) =
      header ++ b.layout.used.flatMap layoutLine := by
    rw [savedLines, List.flatMap_append, List.flatMap_map]
    rfl
  rw [layoutSave, hactive, layoutHeader_eq, hsaved]
  constructor
  · have htables := length_flatMap_le hlen
    rw [List.length_append]
    omega
  · exact foldlM_layoutLine hlen header (by omega)

theorem IsConfigLine.append {line v : Bytes} (h : IsConfigLine line) (hv : ch '\n' ∉ v ∧ 0 ∉ v) :
    IsConfigLine (line ++ v) := by
  obtain ⟨hne, hnl, hnul⟩ := h
  refine ⟨by simp [hne], ?_, ?_⟩ <;> rw [List.mem_append, not_or]
  · exact ⟨hnl, hv.1⟩
  · exact ⟨hnul, hv.2⟩

/-- What is saved is cut into the same lines again. -/
theorem savedLine_isConfigLine {layout : StoreLayout}
    (h : ∀ tp ∈ layout.used, OneWord tp.label.bytes) :
    ∀ line ∈ savedLines layout, IsConfigLine line := by
  have hnum (n : Int) : ch '\n' ∉ fmtInt n ∧ 0 ∉ fmtInt n :=
    ⟨not_mem_fmtInt (by decide) (by decide) n, not_mem_fmtInt (by decide) (by decide) n⟩
  intro line hline
  rcases List.mem_append.mp hline with hline | hline
  · have hkeys : IsConfigLine (lit "# POS table layout (grid + placements)") ∧
        IsConfigLine (lit "grid_rows=") ∧ IsConfigLine (lit "grid_cols=") := by
      refine ⟨⟨?_, ?_, ?_⟩, ⟨?_, ?_, ?_⟩, ?_, ?_, ?_⟩ <;> decide
    obtain ⟨htitle, hrows, hcols⟩ := hkeys
    simp only [headerLines, List.mem_cons, List.not_mem_nil, or_false] at hline
    rcases hline with rfl | rfl | rfl
    · exact htitle
    · exact hrows.append (hnum _)
    · exact hcols.append (hnum _)
  · obtain ⟨tp, htp, rfl⟩ := List.mem_map.mp hline
    have hlabel : ch '\n' ∉ tp.label.bytes := (h tp htp).not_mem (by decide)
    have hkey : IsConfigLine (lit "table=") := by refine ⟨?_, ?_, ?_⟩ <;> decide
    have hzone : ch '\n' ∉ layoutZoneName tp.zone ∧ 0 ∉ layoutZoneName tp.zone := by
      cases tp.zone <;> decide
    have hid := hkey.append (hnum tp.tableId)
    have hzoned := (hid.append (v := lit " zone=") (by decide)).append hzone
    have hrow := (hzoned.append (v := lit " row=") (by decide)).append (hnum tp.row)
    have hcol := (hrow.append (v := lit " col=") (by decide)).append (hnum tp.col)
    exact (hcol.append (v := lit " label=") (by decide)).append ⟨hlabel, tp.label.noNul⟩

theorem loadLine_title (layout : StoreLayout) (rest : Bytes) :
    loadLine layout (lit "# POS table layout (grid + placements)", rest) = some layout := rfl

theorem loadLine_gridRows {n : Int} (hn : FitsInt n) (layout : StoreLayout) (rest : Bytes) :
    loadLine layout (lit "grid_rows=" ++ fmtInt n, rest) = some { layout with gridRows := n } := by
  have hdrop : (lit "grid_rows=" ++ fmtInt n).drop 10 = fmtInt n := rfl
  show some { layout with gridRows := atoi ((lit "grid_rows=" ++ fmtInt n).drop 10) } = _
  rw [hdrop, atoi_fmtInt hn]

theorem loadLine_gridCols {n : Int} (hn : FitsInt n) (layout : StoreLayout) (rest : Bytes) :
    loadLine layout (lit "grid_cols=" ++ fmtInt n, rest) = some { layout with gridCols := n } := by
  have hdrop : (lit "grid_cols=" ++ fmtInt n).drop 10 = fmtInt n := rfl
  show some { layout with gridCols := atoi ((lit "grid_cols=" ++ fmtInt n).drop 10) } = _
  rw [hdrop, atoi_fmtInt hn]

/-- The loader stores the tables of the lines. -/
theorem foldlM_layoutBody {tps : List TablePlacement} (h : ∀ tp ∈ tps, tp.Loaded)
    {lines : List (Bytes × Bytes)} (hlines : lines.map Prod.fst = tps.map layoutBody)
    (layout : StoreLayout) (hroom : layout.count + tps.length ≤ MAX_LAYOUT_TABLES) :
    ∃ layout', lines.foldlM loadLine layout = some layout' ∧ layout'.used = layout.used ++ tps ∧
      layout'.gridRows = layout.gridRows ∧ layout'.gridCols = layout.gridCols := by
  induction tps generalizing lines layout with
  | nil =>
    rw [List.map_nil, List.map_eq_nil_iff] at hlines
    subst hlines
    exact ⟨layout, rfl, by simp, rfl, rfl⟩
  | cons tp tps ih =>
    obtain ⟨line, lines, rfl, hline, hlines⟩ := List.map_eq_cons_iff.mp hlines
    rw [List.length_cons] at hroom
    have hlt : layout.count < MAX_LAYOUT_TABLES := by omega
    have htable : isTableLine line.1 = true := by
      rw [hline]
      rfl
    have hload : loadLine layout line = some (layout.push hlt tp) := by
      rw [loadLine_table htable, dif_pos hlt, hline, placementOf_body (h tp List.mem_cons_self)]
      rfl
    obtain ⟨layout', hrest, hused, hrows, hcols⟩ :=
      ih (fun t ht => h t (List.mem_cons_of_mem _ ht)) hlines (layout.push hlt tp)
        (show layout.count + 1 + tps.length ≤ MAX_LAYOUT_TABLES by omega)
    refine ⟨layout', ?_, ?_, hrows, hcols⟩
    · rw [List.foldlM_cons, hload]
      exact hrest
    · rw [hused, StoreLayout.used_push, List.append_assoc]
      rfl

/-- The loader goes through the lines that were saved. -/
theorem layoutRead_savedLines {b : Board} (h : b.Editable)
    (hload : ∀ tp ∈ b.layout.used, tp.Loaded) :
    ∃ layout, layoutRead ((savedLines b.layout).flatMap (· ++ [ch '\n'])) = some layout ∧
      layout.used = b.layout.used ∧ layout.gridRows = b.layout.gridRows ∧
      layout.gridCols = b.layout.gridCols := by
  have hline := savedLine_isConfigLine fun tp htp => (hload tp htp).label
  have hlines := (configLines_flatMap (fun l hl => (hline l hl).1) (fun l hl => (hline l hl).2.1)
    (fun l hl => (hline l hl).2.2)).2
  have hlen := (layoutSave_eq h).1
  generalize (savedLines b.layout).flatMap (· ++ [ch '\n']) = text at *
  have hcut : (layoutLines text).map Prod.fst = savedLines b.layout := by
    rw [map_layoutLines, layoutText, List.take_of_length_le (by omega)]
    exact hlines
  -- the lines before the tables, each with what is behind it
  obtain ⟨⟨_, behindTitle⟩, _, hlist, rfl, hgrid⟩ := List.map_eq_cons_iff.mp hcut
  obtain ⟨⟨_, behindRows⟩, _, rfl, rfl, hgridCols⟩ := List.map_eq_cons_iff.mp hgrid
  obtain ⟨⟨_, behindCols⟩, tables, rfl, rfl, htables⟩ := List.map_eq_cons_iff.mp hgridCols
  obtain ⟨hrows, hcols⟩ := h.grid.fits
  have hroom : b.layout.used.length ≤ MAX_LAYOUT_TABLES := by
    rw [b.layout.length_used]
    exact b.layout.bound
  obtain ⟨layout, hread, hused, hgridRows, hgridCols⟩ := foldlM_layoutBody hload htables
    { layoutInit with gridRows := b.layout.gridRows, gridCols := b.layout.gridCols }
    (show 0 + b.layout.used.length ≤ MAX_LAYOUT_TABLES by omega)
  refine ⟨layout, ?_, hused, hgridRows, hgridCols⟩
  rw [layoutRead, hlist]
  simp only [List.foldlM_cons, loadLine_title, loadLine_gridRows hrows, loadLine_gridCols hcols,
    Option.bind_eq_bind, Option.bind_some]
  exact hread

/-- `layout_load` gives back the layout `layout_save` wrote. -/
def LayoutReloads (layout : StoreLayout) : Prop :=
  ∃ text loaded, layoutSave layout = some text ∧ layoutLoad (some text) = some loaded ∧
    loaded.gridRows = layout.gridRows ∧ loaded.gridCols = layout.gridCols ∧
    loaded.used = layout.used

theorem Board.Editable.reloads {b : Board} (h : b.Editable) (hne : b.layout.used ≠ [])
    (hlabels : ∀ tp ∈ b.layout.used, OneWord tp.label.bytes) : LayoutReloads b.layout := by
  have hload : ∀ tp ∈ b.layout.used, tp.Loaded := by
    intro tp htp
    obtain ⟨hactive, hrow, hcol⟩ := h.tables tp htp
    exact ⟨hactive, h.idsFit tp (List.mem_of_mem_take htp), hrow, hcol, hlabels tp htp⟩
  obtain ⟨layout, hread, hused, hrows, hcols⟩ := layoutRead_savedLines h hload
  have hcount : layout.count ≠ 0 := by
    rw [← layout.length_used, hused]
    simpa using hne
  -- the grid is in range already
  have hdefaults : layoutDefaults layout = layout := by
    obtain ⟨hpos, hle, hpos', hle'⟩ := h.grid
    rw [layoutDefaults, if_neg hcount, hrows, hcols, if_neg (by omega), if_neg (by omega), ← hrows, ← hcols]
  refine ⟨_, layout, (layoutSave_eq h).2, ?_, hrows, hcols, hused⟩
  rw [layoutLoad, Option.getD_some, hread, Option.map_some, hdefaults]

/-- What the editor makes of a loaded layout comes back from the file as it was exactly when every
label is one word. -/
theorem layoutReloads_iff {file : Option Bytes} {start : StoreLayout} (hstart : layoutLoad file = some start)
    (w : World) (ks : List PosKey) (hne : (runPos (Pos.start start, w) ks).1.layout.used ≠ []) :
    let layout := (runPos (Pos.start start, w) ks).1.layout
    LayoutReloads layout ↔ ∀ tp ∈ layout.used, OneWord tp.label.bytes := by
  intro layout
  constructor
  · rintro ⟨text, loaded, -, hload, -, -, hused⟩ tp htp
    exact ((layoutLoad_loaded hload).tables tp (hused ▸ htp)).label
  · exact (editable_run (layoutLoad_loaded hstart) w ks).reloads hne

/-- Rename table 1 of the default layout. -/
def renameKeys (label : Bytes) : List PosKey :=
  [⟨Env.fair 1, Typed.nothing, .f 5⟩, ⟨Env.fair 1, { Typed.nothing with label }, .char 'l'⟩]

theorem default_reloads : layoutLoad none = some layoutInitDefault := by
  decide +kernel

theorem layoutReloads_word :
    let layout := (runPos (Pos.start layoutInitDefault, World.boot none none)
      (renameKeys (lit "창가"))).1.layout
    LayoutReloads layout ↔ ∀ tp ∈ layout.used, OneWord tp.label.bytes :=
  layoutReloads_iff default_reloads _ _ (by decide +kernel)

/-- A label of two words does not come back. -/
theorem layoutReloads_fails : ¬ ∀ (file : Option Bytes) (start : StoreLayout) (w : World)
    (ks : List PosKey), layoutLoad file = some start →
    (runPos (Pos.start start, w) ks).1.layout.used ≠ [] →
    LayoutReloads (runPos (Pos.start start, w) ks).1.layout := by
  intro hall
  obtain ⟨text, loaded, -, hload, -, -, hused⟩ := hall none layoutInitDefault (World.boot none none)
    (renameKeys (lit "my table")) default_reloads (by decide +kernel)
  have htables := (layoutLoad_loaded hload).tables
  rw [hused] at htables
  revert htables
  decide +kernel

end TableOrder
