import TableOrder.Menu
import TableOrder.Protocol.Event

/-!
# The menu on the wire (`protocol.c`, `ui_apply_menu_response`)

The server answers `MENU_REQUEST` with the whole catalog on one line, as CSV segments between
`;`; a table client replaces its copy of the catalog with what it reads there.
-/

namespace TableOrder

open CLib

/-- The segment of the item at index `i`. -/
def menuSegment (i : Nat) (m : MenuItem) : Bytes :=
  (if 0 < i then lit ";" else []) ++ fmtInt m.id ++ lit "," ++ sanitizeField m.name.bytes ++
    lit "," ++ fmtInt m.price ++ lit "," ++ fmtInt (flag m.soldOut) ++ lit "," ++
    sanitizeField (if m.category.bytes = [] then lit "기타" else m.category.bytes) ++ lit "," ++
    fmtInt (flag m.popular)

/-- One turn of the loop: a segment that does not fit with its terminator ends it. -/
def appendMenuSegment (out : Bytes) (entry : MenuItem × Nat) : Option Bytes :=
  let text := menuSegment entry.2 entry.1
  if MAX_PROTO_LINE ≤ out.length + text.length then none else some (out ++ text)

def protoBuildMenuResponse (cat : MenuCatalog) : Option Bytes :=
  cat.items.zipIdx.foldlM appendMenuSegment (lit "MENU_RESPONSE|")

/-- The item of a segment; a segment without a category field gets the default one. -/
def protoParseMenuCsvSegment (segment : Bytes) : Option MenuItem :=
  menuItemOfTokens defaultCategory (tokens (ch ',') (clip 256 segment))

/-- One turn of the loop over the segments. -/
def applySegment (cat : MenuCatalog) (seg : Bytes) : MenuCatalog :=
  match protoParseMenuCsvSegment seg with
  | some mi => if 0 < mi.id then (cat.push? mi).getD cat else cat
  | none => cat

def uiApplyMenuResponse (cat : MenuCatalog) (line : Bytes) : MenuCatalog :=
  match strstr (lit "MENU_RESPONSE|") line with
  | none => cat
  | some p =>
    (tokens (ch ';') (clip MAX_PROTO_LINE (p.drop 14))).foldl applySegment menuInitCatalog

/-- What holds of every segment with a positive id holds of every item of the new catalog. -/
theorem uiApplyMenuResponse_forall {P : MenuItem → Prop}
    (hrow : ∀ toks m, menuItemOfTokens defaultCategory toks = some m → 0 < m.id → P m)
    {cat : MenuCatalog} (hcat : ∀ m ∈ cat.items, P m) (line : Bytes) :
    ∀ m ∈ (uiApplyMenuResponse cat line).items, P m := by
  have hsegments : ∀ (segs : List Bytes) (cat : MenuCatalog), (∀ m ∈ cat.items, P m) →
      ∀ m ∈ (segs.foldl applySegment cat).items, P m := by
    intro segs
    induction segs with
    | nil => exact fun _ h => h
    | cons seg segs ih =>
      intro cat hcat
      apply ih
      unfold applySegment
      split
      · next mi hmi =>
        split
        · next hpos =>
          cases hpush : cat.push? mi with
          | none => exact hcat
          | some cat' =>
            obtain ⟨-, hitems⟩ := Arr.push?_eq_some.mp hpush
            intro m hm
            rw [Option.getD_some, hitems, List.mem_append, List.mem_singleton] at hm
            rcases hm with hm | rfl
            · exact hcat m hm
            · exact hrow _ _ hmi hpos
        · exact hcat
      · exact hcat
  unfold uiApplyMenuResponse
  split
  · exact hcat
  · exact hsegments _ _ (by simp [menuInitCatalog])

/-- A response that was built fits the buffer with its terminator. -/
theorem length_foldlM_appendMenuSegment {entries : List (MenuItem × Nat)} {out resp : Bytes}
    (hout : out.length < MAX_PROTO_LINE) (h : entries.foldlM appendMenuSegment out = some resp) :
    resp.length < MAX_PROTO_LINE := by
  induction entries generalizing out with
  | nil =>
    cases h
    exact hout
  | cons entry entries ih =>
    rw [List.foldlM_cons] at h
    cases hstep : appendMenuSegment out entry with
    | none =>
      rw [hstep] at h
      cases h
    | some out' =>
      rw [hstep] at h
      refine ih ?_ h
      unfold appendMenuSegment at hstep
      simp only at hstep
      split at hstep
      · cases hstep
      · cases hstep
        rw [List.length_append]
        omega

/-- A response starts with what was written first. -/
theorem append_of_foldlM_appendMenuSegment {entries : List (MenuItem × Nat)} {out resp : Bytes}
    (h : entries.foldlM appendMenuSegment out = some resp) : ∃ rest, resp = out ++ rest := by
  induction entries generalizing out with
  | nil =>
    cases h
    exact ⟨[], by simp⟩
  | cons entry entries ih =>
    rw [List.foldlM_cons] at h
    cases hstep : appendMenuSegment out entry with
    | none =>
      rw [hstep] at h
      cases h
    | some out' =>
      rw [hstep] at h
      obtain ⟨rest, hrest⟩ := ih h
      unfold appendMenuSegment at hstep
      simp only at hstep
      split at hstep
      · cases hstep
      · cases hstep
        exact ⟨_, hrest.trans (List.append_assoc _ _ _)⟩

theorem length_protoBuildMenuResponse {cat : MenuCatalog} {resp : Bytes}
    (h : protoBuildMenuResponse cat = some resp) : resp.length < MAX_PROTO_LINE :=
  length_foldlM_appendMenuSegment (by decide) h

/-! ## The catalog on the other side -/

def sanitizeCategory (category : Category) : Category where
  bytes := sanitizeField category.bytes
  noNul := fun h => category.noNul ((mem_sanitizeField h).2 rfl)
  fits := by
    rw [length_sanitizeField]
    exact category.fits

/-- An item as the response carries it. -/
def wireItem (m : MenuItem) : MenuItem :=
  { menuFillDefaults m with
    name := sanitizeName m.name
    category := sanitizeCategory (menuFillDefaults m).category }

theorem sanitizeField_ne_nil {s : Bytes} (h : s ≠ []) : sanitizeField s ≠ [] := by
  simpa [sanitizeField] using h

theorem wireItem_filled (m : MenuItem) : menuFillDefaults (wireItem m) = wireItem m :=
  menuFillDefaults_of (sanitizeField_ne_nil (menuFillDefaults_category_ne_nil m)) (flag_flag _)
    (flag_flag _)

/-- A segment is the row of the cleaned item, after a `;` unless it is the first. -/
theorem menuSegment_eq (i : Nat) (m : MenuItem) :
    menuSegment i m = (if 0 < i then lit ";" else []) ++ (wireItem m).csv := by
  have hcomma : lit "," = [ch ','] := by decide
  simp only [menuSegment, wireItem, MenuItem.csv, MenuItem.fields, sanitizeName, sanitizeCategory,
    menuFillDefaults_category]
  simp [menuFillDefaults, hcomma]

theorem wireItem_readable {m : MenuItem} (hfits : m.Fits) (hpos : 0 < m.id)
    (hnamed : m.name.bytes ≠ []) : (wireItem m).Readable where
  id := hfits.id
  price := hfits.price
  pos := hpos
  named := sanitizeField_ne_nil hnamed
  filled := wireItem_filled m
  name := not_mem_sanitizeField (by decide) _
  category := not_mem_sanitizeField (by decide) _

/-- The unclipped response. -/
def menuResponseText (cat : MenuCatalog) : Bytes :=
  lit "MENU_RESPONSE|" ++ cat.items.zipIdx.flatMap fun entry => menuSegment entry.2 entry.1

/-- The loop ends early or has written all segments. -/
theorem foldlM_appendMenuSegment {entries : List (MenuItem × Nat)} {out resp : Bytes}
    (h : entries.foldlM appendMenuSegment out = some resp) :
    resp = out ++ entries.flatMap fun entry => menuSegment entry.2 entry.1 := by
  induction entries generalizing out with
  | nil =>
    cases h
    simp
  | cons entry entries ih =>
    rw [List.foldlM_cons] at h
    cases hstep : appendMenuSegment out entry with
    | none =>
      rw [hstep] at h
      cases h
    | some out' =>
      rw [hstep] at h
      rw [ih h, List.flatMap_cons]
      unfold appendMenuSegment at hstep
      simp only at hstep
      split at hstep
      · cases hstep
      · cases hstep
        rw [List.append_assoc]

/-- A text that fits with its terminator is written to its end. -/
theorem foldlM_appendMenuSegment_of_lt {entries : List (MenuItem × Nat)} {out : Bytes}
    (h : (out ++ entries.flatMap fun entry => menuSegment entry.2 entry.1).length < MAX_PROTO_LINE) :
    entries.foldlM appendMenuSegment out =
      some (out ++ entries.flatMap fun entry => menuSegment entry.2 entry.1) := by
  induction entries generalizing out with
  | nil => simp
  | cons entry entries ih =>
    rw [List.flatMap_cons, ← List.append_assoc] at h ⊢
    have hstep : appendMenuSegment out entry = some (out ++ menuSegment entry.2 entry.1) := by
      unfold appendMenuSegment
      simp only
      rw [if_neg]
      simp only [List.length_append] at h
      omega
    rw [List.foldlM_cons, hstep]
    exact ih h

theorem protoBuildMenuResponse_eq (cat : MenuCatalog) : protoBuildMenuResponse cat =
    if (menuResponseText cat).length < MAX_PROTO_LINE then some (menuResponseText cat) else none := by
  split
  · next h => exact foldlM_appendMenuSegment_of_lt h
  · next h =>
    cases hbuild : protoBuildMenuResponse cat with
    | none => rfl
    | some resp =>
      have htext : resp = menuResponseText cat := foldlM_appendMenuSegment hbuild
      exact absurd (htext ▸ length_protoBuildMenuResponse hbuild) h

/-- After a separator, the segments are the rows with a `;` before each. -/
theorem flatMap_menuSegment (ms : List MenuItem) :
    ch ';' :: (ms.zipIdx.flatMap fun entry => menuSegment entry.2 entry.1) =
      if ms = [] then [ch ';'] else (ms.map fun m => (wireItem m).csv).flatMap (ch ';' :: ·) := by
  have hlater (ms : List MenuItem) (i : Nat) :
      ((ms.zipIdx (i + 1)).flatMap fun entry => menuSegment entry.2 entry.1) =
        (ms.map fun m => (wireItem m).csv).flatMap (ch ';' :: ·) := by
    induction ms generalizing i with
    | nil => rfl
    | cons m ms ih =>
      rw [List.zipIdx_cons, List.flatMap_cons, ih, List.map_cons, List.flatMap_cons, menuSegment_eq]
      rfl
  cases ms with
  | nil => rfl
  | cons m ms =>
    rw [List.zipIdx_cons, List.flatMap_cons, hlater, if_neg (by simp), menuSegment_eq]
    rfl

/-- The segments of a response are the rows of the cleaned items. -/
theorem tokens_menuSegments {ms : List MenuItem} :
    tokens (ch ';') (ms.zipIdx.flatMap fun entry => menuSegment entry.2 entry.1) =
      ms.map fun m => (wireItem m).csv := by
  rw [← tokens_sep_cons, flatMap_menuSegment]
  split
  · next h =>
    rw [h]
    rfl
  · apply tokens_flatMap
    · intro w hw
      obtain ⟨m, -, rfl⟩ := List.mem_map.mp hw
      exact (wireItem m).csv_ne_nil
    · intro w hw
      obtain ⟨m, -, rfl⟩ := List.mem_map.mp hw
      exact MenuItem.not_mem_csv (by decide) (by decide) (by decide)
        (not_mem_sanitizeField (by decide) _) (not_mem_sanitizeField (by decide) _)

/-- The length of an item on the wire, between the separators. -/
def menuItemLength (m : MenuItem) : Nat :=
  (fmtInt m.id).length + m.name.bytes.length + (fmtInt m.price).length +
    (if m.category.bytes = [] then 6 else m.category.bytes.length) + 7

/-- The length of the response: the header, the items and a separator between any two. -/
def menuTextLength (cat : MenuCatalog) : Nat :=
  14 + (cat.items.map menuItemLength).sum + (cat.items.length - 1)

theorem length_wireItem_csv (m : MenuItem) : (wireItem m).csv.length = menuItemLength m := by
  have hflag (x : Int) : (fmtInt (flag x)).length = 1 := by
    unfold flag
    split <;> decide
  have hcat : (menuFillDefaults m).category.bytes.length =
      if m.category.bytes = [] then 6 else m.category.bytes.length := by
    rw [menuFillDefaults_category]
    split
    · decide
    · rfl
  simp only [MenuItem.csv, MenuItem.fields, wireItem, sanitizeName, sanitizeCategory,
    menuItemLength, menuFillDefaults, List.flatMap_cons, List.flatMap_nil, List.length_append,
    List.length_singleton, List.length_nil, length_sanitizeField, hflag] at hcat ⊢
  omega

theorem length_menuResponseText (cat : MenuCatalog) :
    (menuResponseText cat).length = menuTextLength cat := by
  have hheader : (lit "MENU_RESPONSE|").length = 14 := by decide
  have hsegments := congrArg List.length (flatMap_menuSegment cat.items)
  rw [List.length_cons] at hsegments
  rw [menuResponseText, menuTextLength, List.length_append, hheader]
  split at hsegments
  · next h =>
    rw [List.length_singleton] at hsegments
    simp only [h, List.map_nil, List.sum_nil, List.length_nil] at hsegments ⊢
    omega
  · next h =>
    have hcount := List.length_pos_iff.mpr h
    have hsum (ms : List MenuItem) : ((ms.map fun m => (wireItem m).csv).flatMap (ch ';' :: ·)).length =
        (ms.map menuItemLength).sum + ms.length := by
      induction ms with
      | nil => rfl
      | cons m ms ih =>
        simp only [List.map_cons, List.flatMap_cons, List.length_append, List.length_cons, List.sum_cons,
          length_wireItem_csv, ih]
        omega
    rw [hsum] at hsegments
    omega

theorem foldl_applySegment_csv (cat : MenuCatalog) {ms : List MenuItem}
    (hms : ∀ m ∈ ms, m.Readable) (hroom : cat.items.length + ms.length ≤ MAX_MENU_ITEMS) :
    ((ms.map MenuItem.csv).foldl applySegment cat).items = cat.items ++ ms := by
  induction ms generalizing cat with
  | nil => simp
  | cons m ms ih =>
    have hm := hms m (by simp)
    rw [List.length_cons] at hroom
    have hlen := hm.toFits.length_csv_le hm.filled
    have hpush := Arr.push?_of_lt (a := cat) (x := m) (by omega)
    have hstep : applySegment cat m.csv = cat.push m (by omega) := by
      unfold applySegment protoParseMenuCsvSegment
      rw [clip_eq_self (by omega), hm.of_tokens_csv]
      simp only [if_pos hm.pos, hpush, Option.getD_some]
    rw [List.map_cons, List.foldl_cons, hstep,
      ih _ (fun v hv => hms v (by simp [hv])) (by simp; omega), Arr.push_items]
    simp

/-- The client's catalog after a response is the one of the server, cleaned. -/
theorem uiApplyMenuResponse_response {cat : MenuCatalog} (hfits : ∀ m ∈ cat.items, m.Fits)
    (hpos : ∀ m ∈ cat.items, 0 < m.id) (hnamed : ∀ m ∈ cat.items, m.name.bytes ≠ []) {resp : Bytes}
    (h : protoBuildMenuResponse cat = some resp) (old : MenuCatalog) :
    (uiApplyMenuResponse old resp).items = cat.items.map wireItem := by
  have htext : resp = menuResponseText cat := foldlM_appendMenuSegment h
  have hlen := length_protoBuildMenuResponse h
  have hdrop : resp.drop 14 = cat.items.zipIdx.flatMap fun entry => menuSegment entry.2 entry.1 := by
    rw [htext]
    rfl
  have hstart : startsWith (lit "MENU_RESPONSE|") resp = true := by
    rw [htext]
    exact startsWith_append _ _
  unfold uiApplyMenuResponse
  rw [strstr_of_startsWith hstart]
  simp only
  rw [clip_eq_self (by rw [List.length_drop]; omega), hdrop, tokens_menuSegments,
    ← Function.comp_def MenuItem.csv wireItem, ← List.map_map, foldl_applySegment_csv]
  · simp [menuInitCatalog]
  · intro m hm
    obtain ⟨m', hm', rfl⟩ := List.mem_map.mp hm
    exact wireItem_readable (hfits m' hm') (hpos m' hm') (hnamed m' hm')
  · simpa [menuInitCatalog] using cat.bound

/-- A response that is built rebuilds the catalog on the client, item by item, whatever the client
had before. -/
theorem menuResponse_roundTrip {cat : MenuCatalog} (hfits : ∀ m ∈ cat.items, m.Fits)
    (hpos : ∀ m ∈ cat.items, 0 < m.id) (hnamed : ∀ m ∈ cat.items, m.name.bytes ≠ []) {resp : Bytes}
    (h : protoBuildMenuResponse cat = some resp) (old : MenuCatalog) :
    (uiApplyMenuResponse old resp).items.length = cat.items.length ∧
      ∀ (i : Nat) (m : MenuItem), cat.items[i]? = some m →
        (uiApplyMenuResponse old resp).items[i]? = some (wireItem m) := by
  have hitems := uiApplyMenuResponse_response hfits hpos hnamed h old
  refine ⟨?_, ?_⟩
  · rw [hitems, List.length_map]
  · intro i m hm
    rw [hitems, List.getElem?_map, hm]
    rfl

/-- A dish with separators in its name and no category, and a drink that is on sale. -/
def twoDishMenu : MenuCatalog where
  items := [⟨7, CStr.copy MAX_NAME (lit "a,b;c"), CStr.empty MAX_CATEGORY, 500, 3, 0⟩,
    ⟨2, CStr.copy MAX_NAME (lit "Tea: hot"), CStr.copy MAX_CATEGORY (lit "Drinks"), 900, 0, 5⟩]
  bound := by decide

theorem twoDishMenu_items : ∀ m ∈ twoDishMenu.items, m.Fits ∧ 0 < m.id ∧ m.name.bytes ≠ [] := by
  intro m hm
  rcases List.mem_pair.mp hm with rfl | rfl
  · exact ⟨⟨by decide, by decide⟩, by decide, by decide⟩
  · exact ⟨⟨by decide, by decide⟩, by decide, by decide⟩

theorem menuResponse_roundTrip_twoDishes :
    (uiApplyMenuResponse menuInitCatalog
        (lit "MENU_RESPONSE|7,a_b_c,500,1,기타,0;2,Tea_ hot,900,0,Drinks,1")).items.length =
        twoDishMenu.items.length ∧
      ∀ (i : Nat) (m : MenuItem), twoDishMenu.items[i]? = some m →
        (uiApplyMenuResponse menuInitCatalog
          (lit "MENU_RESPONSE|7,a_b_c,500,1,기타,0;2,Tea_ hot,900,0,Drinks,1")).items[i]? =
          some (wireItem m) := by
  exact menuResponse_roundTrip (fun m hm => (twoDishMenu_items m hm).1)
    (fun m hm => (twoDishMenu_items m hm).2.1) (fun m hm => (twoDishMenu_items m hm).2.2)
    (by decide) menuInitCatalog

end TableOrder
