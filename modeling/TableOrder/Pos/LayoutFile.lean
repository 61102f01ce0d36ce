import TableOrder.Pos.Layout

/-!
# The layout file (`layout_load`, `layout_save`)

`layout_load` cuts the file into lines with `strtok_r` and looks for fields behind the blanks of a
`table=` line with `strchr`. Where the line ends with a blank, the search goes on behind the line's
terminator. So the buffer is modelled with what lies behind each line, and the placement of a line
that ends with a blank depends on it (`placedByLine_iff`).
-/

namespace TableOrder

open CLib

/-! ## The lines of the file -/

/-- The C string that begins with these bytes. -/
def cString (m : Bytes) : Bytes := m.takeWhile (· ≠ 0)

/-- The lines of a C string, each with the bytes behind its terminator. `after` is what follows the
string, from its NUL on, and `line` the line so far. -/
def cutLines (after line : Bytes) : Bytes → List (Bytes × Bytes)
  | [] => if line = [] then [] else [(line, after.drop 1)]
  | b :: s =>
    if b = ch '\n' then
      if line = [] then cutLines after [] s else (line, s ++ after) :: cutLines after [] s
    else cutLines after (line ++ [b]) s

/-- `buf`: at most 65536 bytes of the file, and the terminator. -/
def layoutBuffer (text : Bytes) : Bytes := text.take 65536 ++ [0]

def layoutLines (text : Bytes) : List (Bytes × Bytes) :=
  cutLines ((layoutBuffer text).dropWhile (· ≠ 0)) [] (cString (layoutBuffer text))

/-! ## The fields of a line -/

/-- The variables the fields are read into. -/
structure TableFields where
  zone : Bytes
  label : Bytes
  row : Int
  col : Int
  deriving DecidableEq

/-- The field at `p`. -/
def readField (p : Bytes) (f : TableFields) : TableFields :=
  if startsWith (lit "zone=") p then { f with zone := (scanWord 15 (p.drop 5)).getD f.zone }
  else if startsWith (lit "row=") p then { f with row := (scanInt (p.drop 4)).getD f.row }
  else if startsWith (lit "col=") p then { f with col := (scanInt (p.drop 4)).getD f.col }
  else if startsWith (lit "label=") p then { f with label := (scanWord 15 (p.drop 6)).getD f.label }
  else f

/-- What moves `p`: `strchr(p, ' ')`, or the loop that skips blanks. -/
inductive ScanMode where
  | find
  | skip
  deriving DecidableEq

/-- The field loop, from the bytes `p` points to up to the end of the buffer; `none` when `p` leaves
the buffer. -/
def scanFields : ScanMode → Bytes → TableFields → Option TableFields
  | _, [], _ => none
  | .find, b :: m, f =>
    if b = 0 then some f
    else if b = ch ' ' then scanFields .skip m f
    else scanFields .find m f
  | .skip, b :: m, f =>
    if b = ch ' ' then scanFields .skip m f
    else scanFields .find m (readField (cString (b :: m)) f)

def layoutZoneFromString (s : Bytes) : TableZone :=
  if s = lit "inside" ∨ s = lit "안" then .inside else .outside

/-- `tp`, when the fields have been read. -/
def placementFrom (id : Int) (f : TableFields) : TablePlacement where
  tableId := id
  zone := layoutZoneFromString f.zone
  row := f.row
  col := f.col
  label := CStr.copy MAX_TABLE_LABEL (if f.label = [] then lit "T" ++ fmtInt id else f.label)
  active := true

/-- The placement of a `table=` line with `rest` behind its terminator. -/
def placementOf (line rest : Bytes) : Option TablePlacement :=
  let id := (scanInt (line.drop 6)).getD 0
  (scanFields .find (line.drop 6 ++ 0 :: rest) ⟨[], [], 0, 0⟩).map (placementFrom id)

/-! ## The loop over the lines -/

/-- `layout->tables[layout->count++] = tp` -/
def StoreLayout.push (layout : StoreLayout) (h : layout.count < MAX_LAYOUT_TABLES)
    (tp : TablePlacement) : StoreLayout :=
  { layout.setSlot layout.count tp with
    count := layout.count + 1
    bound := h }

def isTableLine (line : Bytes) : Bool := startsWith (lit "table=") line

def loadLine (layout : StoreLayout) (line : Bytes × Bytes) : Option StoreLayout :=
  if startsWith (lit "#") line.1 then some layout
  else if startsWith (lit "grid_rows=") line.1 then
    some { layout with gridRows := atoi (line.1.drop 10) }
  else if startsWith (lit "grid_cols=") line.1 then
    some { layout with gridCols := atoi (line.1.drop 10) }
  else if isTableLine line.1 then
    if h : layout.count < MAX_LAYOUT_TABLES then (placementOf line.1 line.2).map (layout.push h)
    else some layout
  else some layout

/-- The layout after the line loop. -/
def layoutRead (text : Bytes) : Option StoreLayout := (layoutLines text).foldlM loadLine layoutInit

/-- The fallbacks for a grid out of range and for no tables. -/
def layoutDefaults (layout : StoreLayout) : StoreLayout :=
  if layout.count = 0 then layoutInitDefault
  else
    { layout with
      gridRows := if layout.gridRows ≤ 0 ∨ MAX_GRID_ROWS < layout.gridRows then 9 else layout.gridRows
      gridCols := if layout.gridCols ≤ 0 ∨ MAX_GRID_COLS < layout.gridCols then 14
        else layout.gridCols }

/-- A missing file is created with the default layout first. `none` is a read behind the buffer. -/
def layoutLoad (file : Option Bytes) : Option StoreLayout :=
  (layoutRead (file.getD ((layoutSave layoutInitDefault).getD []))).map layoutDefaults

/-! ## Where the field loop stops -/

/-- The mode behind a byte of a line. -/
def ScanMode.after (b : UInt8) : ScanMode := if b = ch ' ' then .skip else .find

/-- The bytes end with a blank, or are none behind a blank. -/
def EndsBlank (mode : ScanMode) (l : Bytes) : Prop :=
  l.getLast? = some (ch ' ') ∨ l = [] ∧ mode = .skip

instance (mode : ScanMode) (l : Bytes) : Decidable (EndsBlank mode l) := by
  unfold EndsBlank
  infer_instance

theorem endsBlank_cons (mode : ScanMode) (b : UInt8) (l : Bytes) :
    EndsBlank mode (b :: l) ↔ EndsBlank (.after b) l := by
  unfold EndsBlank ScanMode.after
  cases l with
  | nil =>
    by_cases hb : b = ch ' ' <;> simp [hb]
  | cons c l => simp

theorem cString_append {t : Bytes} (hnul : 0 ∉ t) (m : Bytes) : cString (t ++ m) = t ++ cString m :=
  List.takeWhile_append_of_pos (ne_nul_of_mem hnul)

theorem nul_not_mem_cString (m : Bytes) : 0 ∉ cString m := fun h => by
  simpa using List.mem_takeWhile_imp h

theorem cString_nul (m : Bytes) : cString (0 :: m) = [] := by
  simp [cString]

theorem cString_line {t : Bytes} (hnul : 0 ∉ t) (m : Bytes) : cString (t ++ 0 :: m) = t := by
  rw [cString_append hnul, cString_nul, List.append_nil]

/-- A byte of a line; at the first one behind blanks a field may be read. -/
theorem scanFields_cons {b : UInt8} (hb : b ≠ 0) (mode : ScanMode) (m : Bytes) (f : TableFields) :
    scanFields mode (b :: m) f = scanFields (.after b) m
      (if mode = .skip ∧ b ≠ ch ' ' then readField (cString (b :: m)) f else f) := by
  unfold ScanMode.after
  cases mode with
  | find =>
    have hmode : ¬ (ScanMode.find = .skip ∧ b ≠ ch ' ') := by simp
    rw [scanFields, if_neg hb, if_neg hmode]
    split <;> rfl
  | skip =>
    rw [scanFields]
    by_cases hblank : b = ch ' ' <;> simp [hblank]

/-- A line is scanned up to its terminator, with the same fields whatever lies behind. If it ends with
a blank, the scan goes on there. -/
theorem scanFields_line {l : Bytes} (hnul : 0 ∉ l) (mode : ScanMode) (f : TableFields) :
    ∃ f', ∀ rest, scanFields mode (l ++ 0 :: rest) f =
      if EndsBlank mode l then scanFields .find rest f' else some f' := by
  induction l generalizing mode f with
  | nil =>
    cases mode with
    | find => exact ⟨f, fun rest => rfl⟩
    | skip =>
      refine ⟨readField [] f, fun rest => ?_⟩
      rw [if_pos (.inr ⟨rfl, rfl⟩), ← cString_nul rest]
      rfl
  | cons b l ih =>
    obtain ⟨hb, hl⟩ := not_or.mp (mt List.mem_cons.mpr hnul)
    obtain ⟨f', hf'⟩ := ih hl (.after b)
      (if mode = .skip ∧ b ≠ ch ' ' then readField (b :: l) f else f)
    refine ⟨f', fun rest => ?_⟩
    rw [List.cons_append, scanFields_cons (Ne.symm hb), ← List.cons_append, cString_line hnul, hf']
    simp only [endsBlank_cons]

/-- From here on, every piece up to a NUL ends with a blank; `blank` tells of the bytes before. -/
def runsOff (blank : Bool) : Bytes → Bool
  | [] => true
  | b :: m => if b = 0 then blank && runsOff false m else runsOff (b == ch ' ') m

theorem scanFields_eq_none {m : Bytes} {mode : ScanMode} {f : TableFields} :
    scanFields mode m f = none ↔ runsOff (mode == .skip) m = true := by
  induction m generalizing mode f with
  | nil => cases mode <;> simp [scanFields, runsOff]
  | cons b m ih =>
    by_cases hb : b = 0
    · subst hb
      cases mode with
      | find => simp [scanFields, runsOff]
      | skip =>
        have hnul : (0 : UInt8) ≠ ch ' ' := by decide
        simp only [scanFields, runsOff, if_neg hnul, ih]
        rfl
    · rw [scanFields_cons hb, ih, runsOff, if_neg hb]
      unfold ScanMode.after
      by_cases hblank : b = ch ' '
      · rw [if_pos hblank, hblank]
        rfl
      · rw [if_neg hblank, beq_false_of_ne hblank]
        rfl

/-- Four bytes are no field with a value. -/
theorem readField_short {p : Bytes} (h : p.length ≤ 4) (f : TableFields) : readField p f = f := by
  have hlong (key : Bytes) (hkey : 4 < key.length) : startsWith key p = false := by
    rw [startsWith, Bool.eq_false_iff, Ne, List.isPrefixOf_iff_prefix]
    intro hpre
    have := hpre.length_le
    omega
  have hdrop : p.drop 4 = [] := List.drop_eq_nil_of_le h
  have hnone : scanInt [] = none := rfl
  unfold readField
  simp only [hlong (lit "zone=") (by decide), hlong (lit "label=") (by decide), hdrop, hnone,
    Option.getD_none]
  simp

/-- What may be left of the buffer: nothing, or bytes up to the last terminator. -/
def Terminated (m : Bytes) : Prop := ∀ b, m.getLast? = some b → b = 0

theorem Terminated.tail {b : UInt8} {m : Bytes} (h : Terminated (b :: m)) : Terminated m := by
  cases m with
  | nil => simp [Terminated]
  | cons c m => simpa [Terminated] using h

theorem Terminated.length_lt {m : Bytes} (h : Terminated m) (hne : m ≠ []) :
    (cString m).length < m.length := by
  have hpre : cString m <+: m := List.takeWhile_prefix _
  refine lt_of_le_of_ne hpre.length_le fun heq => ?_
  have hwhole := hpre.eq_of_length heq
  have hzero : (0 : UInt8) ∈ cString m := by
    rw [hwhole, ← h _ (List.getLast?_eq_some_getLast hne)]
    exact List.getLast_mem hne
  simpa using List.mem_takeWhile_imp hzero

/-- Six bytes are too few for a blank, a field and the terminator. -/
theorem scanFields_short {m : Bytes} (hlast : Terminated m) {mode : ScanMode}
    (hlen : m.length ≤ if mode = .find then 6 else 5) {f f' : TableFields}
    (h : scanFields mode m f = some f') : f' = f := by
  induction m generalizing mode f with
  | nil => cases mode <;> cases h
  | cons b m ih =>
    have hmore : m.length ≤ 5 := by
      rw [List.length_cons] at hlen
      split at hlen <;> omega
    have hread : mode = .skip → readField (cString (b :: m)) f = f := by
      rintro rfl
      have hlt := hlast.length_lt (by simp)
      exact readField_short (by simp at hlen hlt ⊢; omega) f
    by_cases hb : b = 0
    · subst hb
      cases mode with
      | find => exact (Option.some.inj h).symm
      | skip =>
        rw [scanFields, if_neg (by decide), hread rfl] at h
        exact ih hlast.tail (by simp; omega) h
    · rw [scanFields_cons hb] at h
      have hsame : (if mode = .skip ∧ b ≠ ch ' ' then readField (cString (b :: m)) f else f) = f := by
        split
        · next hskip => exact hread hskip.1
        · rfl
      rw [hsame] at h
      refine ih hlast.tail ?_ h
      split <;> omega

/-! ## The lines and what lies behind them -/

theorem map_cutLines {line : Bytes} (hline : ch '\n' ∉ line) (after s : Bytes) :
    (cutLines after line s).map Prod.fst = tokens (ch '\n') (line ++ s) := by
  induction s generalizing line with
  | nil =>
    rw [cutLines, List.append_nil]
    split
    · next hnil => rw [hnil]; rfl
    · next hne => rw [tokens_word hne hline]; rfl
  | cons b s ih =>
    rw [cutLines]
    split
    · next hb =>
      subst hb
      split
      · next hnil => rw [ih (by simp), hnil, List.nil_append, List.nil_append, tokens_sep_cons]
      · next hne => rw [List.map_cons, ih (by simp), List.nil_append, tokens_word_sep hne hline]
    · next hb =>
      have hlonger : ch '\n' ∉ line ++ [b] := by
        rw [List.mem_append, List.mem_singleton, not_or]
        exact ⟨hline, Ne.symm hb⟩
      rw [ih hlonger, List.append_assoc]
      rfl

/-- A line and what lies behind its terminator are within the buffer. -/
theorem mem_cutLines {after line s : Bytes} (hafter : Terminated after) (hne : after ≠ [])
    {l rest : Bytes} (h : (l, rest) ∈ cutLines after line s) :
    Terminated rest ∧ l.length + 1 + rest.length ≤ line.length + s.length + after.length := by
  induction s generalizing line with
  | nil =>
    rw [cutLines] at h
    split at h
    · cases h
    · obtain ⟨rfl, rfl⟩ := Prod.mk.inj (List.mem_singleton.mp h)
      cases after with
      | nil => exact absurd rfl hne
      | cons b after =>
        refine ⟨hafter.tail, ?_⟩
        simp only [List.drop_one, List.tail_cons, List.length_cons, List.length_nil]
        omega
  | cons b s ih =>
    have hlast : Terminated (s ++ after) := by
      intro c hc
      rw [List.getLast?_append_of_ne_nil _ hne] at hc
      exact hafter c hc
    rw [cutLines] at h
    split at h
    · split at h
      · obtain ⟨hrest, hlen⟩ := ih h
        refine ⟨hrest, ?_⟩
        simp only [List.length_cons, List.length_nil] at hlen ⊢
        omega
      · rcases List.mem_cons.mp h with heq | h
        · obtain ⟨rfl, rfl⟩ := Prod.mk.inj heq
          refine ⟨hlast, ?_⟩
          simp only [List.length_append, List.length_cons]
          omega
        · obtain ⟨hrest, hlen⟩ := ih h
          refine ⟨hrest, ?_⟩
          simp only [List.length_cons, List.length_nil] at hlen ⊢
          omega
    · obtain ⟨hrest, hlen⟩ := ih h
      refine ⟨hrest, ?_⟩
      simp only [List.length_append, List.length_cons, List.length_nil] at hlen ⊢
      omega

/-- The bytes before the first NUL, of at most 65536. -/
def layoutText (text : Bytes) : Bytes := cString (text.take 65536)

theorem cString_layoutBuffer (text : Bytes) : cString (layoutBuffer text) = layoutText text := by
  unfold layoutBuffer layoutText cString
  induction text.take 65536 with
  | nil => rfl
  | cons b s ih =>
    rw [List.cons_append, List.takeWhile_cons, List.takeWhile_cons, ih]

theorem map_layoutLines (text : Bytes) :
    (layoutLines text).map Prod.fst = tokens (ch '\n') (layoutText text) := by
  rw [layoutLines, map_cutLines (by simp), List.nil_append, cString_layoutBuffer]

theorem mem_layoutLines {text l rest : Bytes} (h : (l, rest) ∈ layoutLines text) :
    0 ∉ l ∧ Terminated rest ∧ l.length + rest.length ≤ 65536 := by
  have hline : l ∈ tokens (ch '\n') (layoutText text) := by
    rw [← map_layoutLines]
    exact List.mem_map_of_mem h
  have hnul : 0 ∉ l := fun hzero => by
    simpa using List.mem_takeWhile_imp ((mem_tokens hline).2.2 0 hzero)
  have hsplit : cString (layoutBuffer text) ++ (layoutBuffer text).dropWhile (· ≠ 0) =
      layoutBuffer text := List.takeWhile_append_dropWhile
  -- the terminator is behind the string
  have hne : (layoutBuffer text).dropWhile (· ≠ 0) ≠ [] := by
    rw [Ne, List.dropWhile_eq_nil_iff]
    intro hall
    have hzero := hall 0 (List.mem_append_right _ (List.mem_singleton_self 0))
    simp at hzero
  have hlast : Terminated ((layoutBuffer text).dropWhile (· ≠ 0)) := by
    intro b hb
    rw [← List.getLast?_append_of_ne_nil _ hne, hsplit, layoutBuffer, List.getLast?_concat] at hb
    exact (Option.some.inj hb).symm
  obtain ⟨hrest, hlen⟩ := mem_cutLines hlast hne h
  have hsize : (layoutBuffer text).length ≤ 65537 := by
    rw [layoutBuffer, List.length_append, List.length_take, List.length_singleton]
    omega
  rw [← hsplit, List.length_append] at hsize
  rw [List.length_nil] at hlen
  exact ⟨hnul, hrest, by omega⟩

/-! ## What the line loop stores -/

/-- The lines that are stored, with what lies behind them. -/
def tableLines (text : Bytes) : List (Bytes × Bytes) :=
  ((layoutLines text).filter fun l => isTableLine l.1).take MAX_LAYOUT_TABLES

namespace StoreLayout

theorem used_push (layout : StoreLayout) (h : layout.count < MAX_LAYOUT_TABLES)
    (tp : TablePlacement) : (layout.push h tp).used = layout.used ++ [tp] := by
  have hlt : layout.count < layout.tables.length := by rw [layout.size]; exact h
  show (layout.tables.set layout.count tp).take (layout.count + 1) = _
  rw [List.take_add_one, List.getElem?_set_self hlt, List.take_set,
    List.set_eq_of_length_le (by rw [List.length_take]; omega)]
  rfl

end StoreLayout

theorem loadLine_other {line : Bytes × Bytes} (h : isTableLine line.1 = false)
    (layout : StoreLayout) : ∃ layout', loadLine layout line = some layout' ∧
      layout'.used = layout.used ∧ layout'.count = layout.count ∧ layout'.tables = layout.tables := by
  unfold loadLine
  rw [h]
  split
  · exact ⟨_, rfl, rfl, rfl, rfl⟩
  · split
    · exact ⟨_, rfl, rfl, rfl, rfl⟩
    · split
      · exact ⟨_, rfl, rfl, rfl, rfl⟩
      · exact ⟨_, rfl, rfl, rfl, rfl⟩

theorem loadLine_table {line : Bytes × Bytes} (h : isTableLine line.1 = true)
    (layout : StoreLayout) : loadLine layout line =
      if hroom : layout.count < MAX_LAYOUT_TABLES then
        (placementOf line.1 line.2).map (layout.push hroom)
      else some layout := by
  have hother : startsWith (lit "#") line.1 = false ∧ startsWith (lit "grid_rows=") line.1 = false ∧
      startsWith (lit "grid_cols=") line.1 = false := by
    rw [eq_append_of_startsWith h]
    exact ⟨rfl, rfl, rfl⟩
  unfold loadLine
  simp [hother, h]

/-- The loop stores the `table=` lines it has room for, if each can be scanned. -/
theorem foldlM_loadLine {lines : List (Bytes × Bytes)} {layout layout' : StoreLayout}
    (h : lines.foldlM loadLine layout = some layout') :
    ∃ tps, layout'.used = layout.used ++ tps ∧ List.Forall₂ (fun l tp => placementOf l.1 l.2 = some tp)
      ((lines.filter fun l => isTableLine l.1).take (MAX_LAYOUT_TABLES - layout.count)) tps := by
  induction lines generalizing layout with
  | nil =>
    cases h
    exact ⟨[], by simp, by simp⟩
  | cons line lines ih =>
    rw [List.foldlM_cons] at h
    cases htable : isTableLine line.1 with
    | false =>
      obtain ⟨next, hnext, hused, hcount, -⟩ := loadLine_other htable layout
      rw [hnext] at h
      obtain ⟨tps, htps, hall⟩ := ih h
      rw [List.filter_cons_of_neg (by simp [htable])]
      exact ⟨tps, by rw [htps, hused], hcount ▸ hall⟩
    | true =>
      rw [loadLine_table htable] at h
      rw [List.filter_cons_of_pos (by simp [htable])]
      split at h
      · next hroom =>
        obtain ⟨next, hnext, h⟩ := Option.bind_eq_some_iff.mp h
        obtain ⟨tp, htp, rfl⟩ := Option.map_eq_some_iff.mp hnext
        obtain ⟨tps, htps, hall⟩ := ih h
        rw [StoreLayout.used_push] at htps
        refine ⟨tp :: tps, by rw [htps, List.append_assoc]; rfl, ?_⟩
        rw [show MAX_LAYOUT_TABLES - layout.count =
          (MAX_LAYOUT_TABLES - (layout.count + 1)) + 1 by omega, List.take_succ_cons]
        exact .cons htp hall
      · next hfull =>
        obtain ⟨tps, htps, hall⟩ := ih h
        rw [show MAX_LAYOUT_TABLES - layout.count = 0 by omega] at hall ⊢
        exact ⟨tps, htps, hall⟩

theorem foldlM_loadLine_isSome {lines : List (Bytes × Bytes)} {layout : StoreLayout}
    (h : ∀ l ∈ (lines.filter fun l => isTableLine l.1).take (MAX_LAYOUT_TABLES - layout.count),
      (placementOf l.1 l.2).isSome) : (lines.foldlM loadLine layout).isSome := by
  induction lines generalizing layout with
  | nil => rfl
  | cons line lines ih =>
    rw [List.foldlM_cons]
    cases htable : isTableLine line.1 with
    | false =>
      obtain ⟨next, hnext, -, hcount, -⟩ := loadLine_other htable layout
      rw [List.filter_cons_of_neg (by simp [htable]), ← hcount] at h
      rw [hnext]
      exact ih h
    | true =>
      rw [List.filter_cons_of_pos (by simp [htable])] at h
      rw [loadLine_table htable]
      split
      · next hroom =>
        rw [show MAX_LAYOUT_TABLES - layout.count =
          (MAX_LAYOUT_TABLES - (layout.count + 1)) + 1 by omega, List.take_succ_cons,
          List.forall_mem_cons] at h
        obtain ⟨tp, htp⟩ := Option.isSome_iff_exists.mp h.1
        rw [htp]
        exact ih h.2
      · next hfull =>
        rw [show MAX_LAYOUT_TABLES - layout.count = 0 by omega] at h
        exact ih (by rw [show MAX_LAYOUT_TABLES - layout.count = 0 by omega]; exact h)

/-- What is stored for the lines, when the loop stays in the buffer. -/
theorem layoutRead_used {text : Bytes} {layout : StoreLayout} (h : layoutRead text = some layout) :
    List.Forall₂ (fun l tp => placementOf l.1 l.2 = some tp) (tableLines text) layout.used := by
  obtain ⟨tps, hused, hall⟩ := foldlM_loadLine h
  rw [hused]
  exact hall

/-- The loop stays in the buffer when the scan of every stored line does. -/
theorem layoutRead_isSome {text : Bytes} :
    (layoutRead text).isSome ↔ ∀ l ∈ tableLines text, (placementOf l.1 l.2).isSome := by
  constructor
  · intro hsome l hl
    obtain ⟨layout, hread⟩ := Option.isSome_iff_exists.mp hsome
    obtain ⟨tp, -, hplaced⟩ := exists_zip_of_forall₂ (layoutRead_used hread) hl
    rw [hplaced]
    rfl
  · exact fun hall => foldlM_loadLine_isSome hall

/-! ## Placements by line -/

/-- `tp` is what is stored for the line. -/
def Stores (text line : Bytes) (tp : TablePlacement) : Prop :=
  ∃ layout, layoutRead text = some layout ∧
    (line, tp) ∈ ((tableLines text).map Prod.fst).zip layout.used

/-- The loop stays in the buffer, and what is stored for a line is stored for it whatever the other
lines are. -/
def PlacedByLine (text : Bytes) : Prop :=
  (layoutRead text).isSome ∧ ∀ line tp, Stores text line tp →
    ∀ text' tp', Stores text' line tp' → tp' = tp

theorem stores_iff {text line : Bytes} {tp : TablePlacement} (h : (layoutRead text).isSome) :
    Stores text line tp ↔ ∃ rest, (line, rest) ∈ tableLines text ∧ placementOf line rest = some tp := by
  obtain ⟨layout, hread⟩ := Option.isSome_iff_exists.mp h
  have hall := layoutRead_used hread
  have hstored : Stores text line tp ↔ ∃ rest, ((line, rest), tp) ∈ (tableLines text).zip layout.used := by
    unfold Stores
    rw [hread]
    simp [List.zip_map_left]
  rw [hstored]
  constructor
  · rintro ⟨rest, hmem⟩
    exact ⟨rest, (List.of_mem_zip hmem).1, List.forall₂_zip hall hmem⟩
  · rintro ⟨rest, hmem, hplaced⟩
    obtain ⟨tp', hzip, hplaced'⟩ := exists_zip_of_forall₂ hall hmem
    rw [hplaced] at hplaced'
    cases hplaced'
    exact ⟨rest, hzip⟩

/-- The last byte of a `table=` line is behind its key. -/
theorem endsBlank_drop {line : Bytes} (h : isTableLine line = true) :
    EndsBlank .find (line.drop 6) ↔ line.getLast? = some (ch ' ') := by
  unfold EndsBlank
  rw [or_iff_left (by simp), List.getLast?_drop]
  split
  · next hshort =>
    have hline := eq_append_of_startsWith h
    rw [show (lit "table=").length = 6 from rfl, List.drop_eq_nil_of_le hshort] at hline
    rw [hline]
    exact iff_of_false (by simp) (by decide)
  · rfl

/-- A line without a blank at its end has one placement; one with a blank has the fields of the line
and then those found behind it. -/
theorem placementOf_line {line : Bytes} (hnul : 0 ∉ line) (htable : isTableLine line = true) :
    ∃ f, ∀ rest, placementOf line rest =
      (if line.getLast? = some (ch ' ') then scanFields .find rest f else some f).map
        (placementFrom ((scanInt (line.drop 6)).getD 0)) := by
  have hdrop : 0 ∉ line.drop 6 := fun h => hnul (List.mem_of_mem_drop h)
  obtain ⟨f, hf⟩ := scanFields_line hdrop .find ⟨[], [], 0, 0⟩
  refine ⟨f, fun rest => ?_⟩
  rw [placementOf]
  simp only [hf rest, endsBlank_drop htable]

theorem placementOf_isSome {line : Bytes} (hnul : 0 ∉ line) (htable : isTableLine line = true)
    (rest : Bytes) :
    (placementOf line rest).isSome ↔
      (line.getLast? = some (ch ' ') → runsOff false rest = false) := by
  obtain ⟨f, hf⟩ := placementOf_line hnul htable
  rw [hf, Option.isSome_map]
  by_cases hblank : line.getLast? = some (ch ' ')
  · have hruns : scanFields .find rest f = none ↔ runsOff false rest = true := scanFields_eq_none
    rw [if_pos hblank, Option.isSome_iff_ne_none, Ne, hruns, Bool.not_eq_true]
    exact ⟨fun hruns _ => hruns, fun h => h hblank⟩
  · rw [if_neg hblank]
    exact iff_of_true rfl fun h => absurd h hblank

/-- Behind the line there is no field, and the scan of what is there comes to an end. -/
def NothingBehind (line rest : Bytes) : Prop := 65529 < line.length ∧ runsOff false rest = false

theorem cutLines_line {after line : Bytes} (hline : ch '\n' ∉ line) (s : Bytes) {acc : Bytes}
    (hne : acc ++ line ≠ []) : cutLines after acc (line ++ ch '\n' :: s) =
      (acc ++ line, s ++ after) :: cutLines after [] s := by
  induction line generalizing acc with
  | nil =>
    rw [List.append_nil] at hne ⊢
    rw [List.nil_append, cutLines, if_pos rfl, if_neg hne]
  | cons b line ih =>
    obtain ⟨hb, hline⟩ := not_or.mp (mt List.mem_cons.mpr hline)
    rw [List.cons_append, cutLines, if_neg (Ne.symm hb), ih hline (by simp), List.append_assoc]
    rfl

/-- The lines of a text without NUL that fits the buffer. -/
theorem layoutLines_eq {text : Bytes} (hnul : 0 ∉ text) (hlen : text.length ≤ 65536) :
    layoutLines text = cutLines [0] [] text := by
  have hall := ne_nul_of_mem hnul
  unfold layoutLines layoutBuffer cString
  rw [List.take_of_length_le hlen, List.takeWhile_append_of_pos hall, List.dropWhile_append_of_pos hall]
  simp

/-- A line before a field that is not its own. -/
theorem placementOf_before {line : Bytes} (hne : line ≠ []) (hnl : ch '\n' ∉ line) (hnul : 0 ∉ line)
    (hlen : line.length ≤ 65529) (htable : isTableLine line = true)
    (hblank : line.getLast? = some (ch ' ')) {field : Bytes} {n : Int}
    (hfield : field = lit " row=0" ∧ n = 0 ∨ field = lit " row=1" ∧ n = 1) :
    ∃ tp, Stores (line ++ ch '\n' :: field) line tp ∧ tp.row = n := by
  obtain ⟨f, hf⟩ := placementOf_line hnul htable
  have hsix : field.length = 6 ∧ 0 ∉ field ∧ cutLines [0] [] field = [(field, [])] ∧
      isTableLine field = false := by
    rcases hfield with ⟨rfl, -⟩ | ⟨rfl, -⟩ <;> exact ⟨by decide, by decide, by decide, by decide⟩
  obtain ⟨hsize, hfree, hcut, hother⟩ := hsix
  have hread : scanFields .find (field ++ [0]) f = some { f with row := n } := by
    rcases hfield with ⟨rfl, rfl⟩ | ⟨rfl, rfl⟩ <;> rfl
  have hlines : layoutLines (line ++ ch '\n' :: field) = [(line, field ++ [0]), (field, [])] := by
    have hwhole : 0 ∉ line ++ ch '\n' :: field := by
      rw [List.mem_append, List.mem_cons, not_or, not_or]
      exact ⟨hnul, by decide, hfree⟩
    have hfits : (line ++ ch '\n' :: field).length ≤ 65536 := by
      rw [List.length_append, List.length_cons]
      omega
    rw [layoutLines_eq hwhole hfits, cutLines_line hnl field (by simpa using hne), hcut]
    rfl
  have htables : tableLines (line ++ ch '\n' :: field) = [(line, field ++ [0])] := by
    rw [tableLines, hlines]
    simp [htable, hother]
  have hplaced : placementOf line (field ++ [0]) =
      some (placementFrom ((scanInt (line.drop 6)).getD 0) { f with row := n }) := by
    rw [hf, if_pos hblank, hread]
    rfl
  have hsome : (layoutRead (line ++ ch '\n' :: field)).isSome := by
    refine layoutRead_isSome.mpr fun l hl => ?_
    rw [htables, List.mem_singleton] at hl
    rw [hl, hplaced]
    rfl
  refine ⟨_, (stores_iff hsome).mpr ⟨field ++ [0], ?_, hplaced⟩, rfl⟩
  rw [htables]
  exact List.mem_singleton_self _

/-- A line has one placement in every file, unless a field fits behind its blank. -/
theorem placementOf_unique {line : Bytes} (hnul : 0 ∉ line) (htable : isTableLine line = true)
    (hlong : line.getLast? = some (ch ' ') → 65529 < line.length) :
    ∃ tp, ∀ rest tp', Terminated rest → line.length + rest.length ≤ 65536 →
      placementOf line rest = some tp' → tp' = tp := by
  obtain ⟨f, hf⟩ := placementOf_line hnul htable
  refine ⟨placementFrom ((scanInt (line.drop 6)).getD 0) f, ?_⟩
  intro rest tp' hlast hfits hplaced
  rw [hf rest] at hplaced
  split at hplaced
  · next hblank =>
    have hlong := hlong hblank
    obtain ⟨f', hf', rfl⟩ := Option.map_eq_some_iff.mp hplaced
    have hshort : rest.length ≤ if ScanMode.find = .find then 6 else 5 := by
      rw [if_pos rfl]
      omega
    rw [scanFields_short hlast hshort hf']
  · exact (Option.some.inj hplaced).symm

theorem mem_tableLines {text : Bytes} {l : Bytes × Bytes} (h : l ∈ tableLines text) :
    isTableLine l.1 = true ∧ l ∈ layoutLines text := by
  obtain ⟨hmem, htable⟩ := List.mem_filter.mp (List.mem_of_mem_take h)
  exact ⟨htable, hmem⟩

/-- A line that can be followed by a field has no placement of its own. -/
theorem length_of_placedByLine {text : Bytes} (h : PlacedByLine text) {l : Bytes × Bytes}
    (hl : l ∈ tableLines text) (hblank : l.1.getLast? = some (ch ' ')) : 65529 < l.1.length := by
  obtain ⟨hsome, hbyLine⟩ := h
  obtain ⟨htable, hmem⟩ := mem_tableLines hl
  obtain ⟨hnul, -, -⟩ := mem_layoutLines hmem
  obtain ⟨hne, hnl, -⟩ := mem_tokens (map_layoutLines text ▸ List.mem_map_of_mem hmem)
  obtain ⟨tp, hplaced⟩ := Option.isSome_iff_exists.mp (layoutRead_isSome.mp hsome l hl)
  have hstored := (stores_iff hsome).mpr ⟨l.2, hl, hplaced⟩
  by_contra hshort
  have hbefore {field : Bytes} {n : Int}
      (hfield : field = lit " row=0" ∧ n = 0 ∨ field = lit " row=1" ∧ n = 1) : tp.row = n := by
    obtain ⟨tp', hstored', hrow⟩ :=
      placementOf_before hne hnl hnul (Nat.le_of_not_lt hshort) htable hblank hfield
    rw [← hbyLine l.1 tp hstored _ tp' hstored']
    exact hrow
  have hzero := hbefore (.inl ⟨rfl, rfl⟩)
  have hone := hbefore (.inr ⟨rfl, rfl⟩)
  omega

theorem placedByLine_iff (text : Bytes) :
    PlacedByLine text ↔ ∀ l ∈ tableLines text, l.1.getLast? = some (ch ' ') → NothingBehind l.1 l.2 := by
  have hplaces {l : Bytes × Bytes} (hl : l ∈ tableLines text) : (placementOf l.1 l.2).isSome ↔
      (l.1.getLast? = some (ch ' ') → runsOff false l.2 = false) := by
    obtain ⟨htable, hmem⟩ := mem_tableLines hl
    exact placementOf_isSome (mem_layoutLines hmem).1 htable l.2
  constructor
  · intro hbyLine l hl hblank
    exact ⟨length_of_placedByLine hbyLine hl hblank,
      (hplaces hl).mp (layoutRead_isSome.mp hbyLine.1 l hl) hblank⟩
  · intro hbehind
    have hsome : (layoutRead text).isSome :=
      layoutRead_isSome.mpr fun l hl => (hplaces hl).mpr fun hblank => (hbehind l hl hblank).2
    refine ⟨hsome, ?_⟩
    rintro line tp hstored text' tp' hstored'
    have hsome' : (layoutRead text').isSome := by
      obtain ⟨layout, hread, -⟩ := hstored'
      rw [hread]
      rfl
    obtain ⟨rest, hl, hplaced⟩ := (stores_iff hsome).mp hstored
    obtain ⟨rest', hl', hplaced'⟩ := (stores_iff hsome').mp hstored'
    obtain ⟨htable, hmem⟩ := mem_tableLines hl
    obtain ⟨hnul, hlast, hlen⟩ := mem_layoutLines hmem
    obtain ⟨-, hlast', hlen'⟩ := mem_layoutLines (mem_tableLines hl').2
    obtain ⟨own, hown⟩ := placementOf_unique hnul htable fun hblank => (hbehind _ hl hblank).1
    rw [hown rest tp hlast hlen hplaced, hown rest' tp' hlast' hlen' hplaced']

/-- A blank behind the label of table 1, as an editor may leave it. -/
def trailingBlank : Bytes := lit "table=1 zone=inside row=0 col=0 label=A "

/-- A file that ends with a blank is read behind its end, and a blank at the end of a line gives its
table the row and column of the next one. -/
theorem placedByLine_fails : layoutRead (lit "table=1 ") = none ∧
    ¬ PlacedByLine (trailingBlank ++ lit "\ntable=2 zone=outside row=3 col=4 label=B\n") := by
  refine ⟨by decide +kernel, ?_⟩
  rintro ⟨hsome, hbyLine⟩
  have hread : (layoutRead (trailingBlank ++ lit "\n")).isSome := by decide +kernel
  have htaken : Stores (trailingBlank ++ lit "\ntable=2 zone=outside row=3 col=4 label=B\n")
      trailingBlank ⟨1, .outside, 3, 4, CStr.copy MAX_TABLE_LABEL (lit "B"), true⟩ :=
    (stores_iff hsome).mpr ⟨lit "table=2 zone=outside row=3 col=4 label=B\n" ++ [0],
      by decide +kernel, by decide +kernel⟩
  have halone : Stores (trailingBlank ++ lit "\n") trailingBlank
      ⟨1, .inside, 0, 0, CStr.copy MAX_TABLE_LABEL (lit "A"), true⟩ :=
    (stores_iff hread).mpr ⟨[0], by decide +kernel, by decide +kernel⟩
  have hrow := congrArg TablePlacement.row (hbyLine _ _ htaken _ _ halone)
  revert hrow
  decide

end TableOrder
