import TableOrder.Pos.Screen

/-!
# The screen shows what there is

The loop of the POS looks at the counters only at its top, and draws a tab in many steps. What it can
rely on in between is `Desk.Sound`: as long as a counter has not moved since the loop looked at it, and
no thread has still to count a call, the fields behind this counter are right, drawn or still to be
drawn.

So while the loop waits for a key it is out of date at most where a counter has moved or will
(`screen_current`), and left alone it catches up (`screen_catches_up`).
-/

namespace TableOrder

open CLib
open Cell (Since)

variable (log : Bytes)

/-! ## The invariant -/

/-- The loop has looked at this counter since it began its turn. -/
def LoopStage.looked : LoopStage → Source → Bool
  | _, .own => true
  | .orders, _ => false
  | .staff, .orders => true
  | .staff, .staff => false
  | _, _ => true

/-- The loop has drawn or is drawing. -/
def LoopStage.drawn : LoopStage → Bool
  | .drawing _ => true
  | .waiting => true
  | _ => false

def LoopStage.todo : LoopStage → List Field
  | .drawing todo => todo
  | _ => []

namespace Desk

/-- What the loop saw last of a counter. -/
def seen (d : Desk) : Source → Int
  | .orders => d.lastRev
  | .staff => d.lastStaffRev
  | .own => 0

/-- The tab is on the screen, or will be, and of this source it shows what there is. -/
structure Shows (d : Desk) (source : Source) : Prop where
  fields : d.screen.map (·.field) ++ d.stage.todo = tabFields d.pos d.screenRows d.screenCols
  current : ∀ p ∈ d.screen, p.field.source = source → p.shown = p.field.read log d.hub.world p.time

structure Sound (d : Desk) : Prop where
  threads : d.hub.Counts
  seen : ∀ source, 0 ≤ d.seen source ∧ d.seen source < (4294967296 : Nat)
  clean : d.stage.drawn = true → d.pos.dirty = false
  /-- A dirty tab will be drawn anyway, so before the loop has looked nothing need hold of it. -/
  since : ∀ source, d.stage.looked source = true ∨ d.pos.dirty = false →
    Since 4294967296 (d.seen source) (revision d.hub.world source) (d.passed source)
      (d.pos.dirty = false → d.hub.Settled source → d.Shows log source)

end Desk

theorem revision_range (w : World) (source : Source) :
    0 ≤ revision w source ∧ revision w source < (4294967296 : Nat) := by
  have huint (x : Int) : 0 ≤ uint32 x ∧ uint32 x < (4294967296 : Nat) := by
    unfold uint32
    omega
  cases source with
  | orders => exact huint _
  | staff => exact huint _
  | own => exact ⟨Int.le_refl 0, Int.natCast_pos.mpr (Nat.succ_pos _)⟩

variable {log}

/-- The loop looks at one counter and marks the tab if it is not what it saw last. -/
structure Looks (source : Source) (d d' : Desk) : Prop where
  hub : d'.hub = d.hub
  screen : d'.screen = d.screen ∧ d'.screenRows = d.screenRows ∧ d'.screenCols = d.screenCols
  todo : d'.stage.todo = d.stage.todo
  before : d'.stage.drawn = false
  looked : ∀ s, d'.stage.looked s = true → s = source ∨ d.stage.looked s = true
  passed : ∀ s, s ≠ source → d'.passed s = d.passed s
  seen : d'.seen source = revision d.hub.world source ∧ ∀ s, s ≠ source → d'.seen s = d.seen s
  marks : d'.pos.dirty = true ∨ (d'.pos = d.pos ∧ d.seen source = revision d.hub.world source)

theorem Looks.sound {source : Source} {d d' : Desk} (h : Looks source d d') (hd : d.Sound log)
    (hpassed : d.passed source < 4294967296) : d'.Sound log := by
  -- while the tab is clean nothing changes but what was seen
  have hshows (hclean : d'.pos.dirty = false) (s : Source) (hs : d.Shows log s) : d'.Shows log s := by
    have hpos : d'.pos = d.pos := by
      rcases h.marks with hdirty | ⟨hpos, -⟩
      · rw [hdirty] at hclean
        cases hclean
      · exact hpos
    obtain ⟨hscreen, hrows, hcols⟩ := h.screen
    constructor
    · rw [hscreen, h.todo, hpos, hrows, hcols]
      exact hs.fields
    · rw [hscreen, h.hub]
      exact hs.current
  refine ⟨?_, ?_, ?_, ?_⟩
  · rw [h.hub]
    exact hd.threads
  · intro s
    by_cases hs : s = source
    · rw [hs, h.seen.1]
      exact revision_range _ _
    · rw [h.seen.2 s hs]
      exact hd.seen s
  · rw [h.before]
    rintro ⟨⟩
  · intro s hready
    rw [h.hub]
    by_cases hs : s = source
    · subst hs
      rw [h.seen.1]
      apply Since.look (revision_range _ _)
      intro hclean hsettled
      apply hshows hclean
      rcases h.marks with hdirty | ⟨hpos, hseen⟩
      · rw [hdirty] at hclean
        cases hclean
      · rw [hpos] at hclean
        exact (hd.since s (.inr hclean)).same (hd.seen s) hpassed hseen.symm hclean hsettled
    · rw [h.seen.2 s hs, h.passed s hs]
      have hbefore : d.stage.looked s = true ∨ d.pos.dirty = false := by
        rcases hready with hlooked | hclean
        · exact .inl ((h.looked s hlooked).resolve_left hs)
        · rcases h.marks with hdirty | ⟨hpos, -⟩
          · rw [hdirty] at hclean
            cases hclean
          · rw [hpos] at hclean
            exact .inr hclean
      apply (hd.since s hbefore).quiet le_rfl
      intro hs' hclean hsettled
      apply hshows hclean
      refine hs' ?_ hsettled
      rcases h.marks with hdirty | ⟨hpos, -⟩
      · rw [hdirty] at hclean
        cases hclean
      · rw [← hpos]
        exact hclean

theorem looks_orders {d : Desk} (hstage : d.stage = .orders) (rows cols : Int) :
    Looks .orders d (d.lookOrders rows cols) := by
  have hpassed (s : Source) (hs : s ≠ .orders) : Function.update d.passed .orders 0 s = d.passed s :=
    Function.update_of_ne hs ..
  have hlooked (s : Source) (h : LoopStage.staff.looked s = true) :
      s = .orders ∨ d.stage.looked s = true := by
    rw [hstage]
    cases s with
    | orders => exact .inl rfl
    | staff => cases h
    | own => exact .inr rfl
  have hseen (s : Source) (hs : s ≠ .orders) : ∀ d' : Desk, d'.lastStaffRev = d.lastStaffRev →
      d'.seen s = d.seen s := by
    intro d' h
    cases s with
    | orders => exact absurd rfl hs
    | staff => exact h
    | own => rfl
  unfold Desk.lookOrders
  simp only
  split
  · exact ⟨rfl, ⟨rfl, rfl, rfl⟩, by rw [hstage]; rfl, rfl, hlooked, hpassed,
      ⟨rfl, fun s hs => hseen s hs _ rfl⟩, .inl rfl⟩
  · next hsame =>
    have heq : d.lastRev = uint32 d.hub.world.ctx.ordersRevision := (not_not.mp hsame).symm
    exact ⟨rfl, ⟨rfl, rfl, rfl⟩, by rw [hstage]; rfl, rfl, hlooked, hpassed,
      ⟨heq, fun s hs => hseen s hs _ rfl⟩, .inr ⟨rfl, heq⟩⟩

theorem looks_staff {d : Desk} (hstage : d.stage = .staff) : Looks .staff d d.lookStaff := by
  have hpassed (s : Source) (hs : s ≠ .staff) : Function.update d.passed .staff 0 s = d.passed s :=
    Function.update_of_ne hs ..
  have hlooked (s : Source) (_ : LoopStage.redraw.looked s = true) :
      s = .staff ∨ d.stage.looked s = true := by
    rw [hstage]
    cases s with
    | staff => exact .inl rfl
    | orders => exact .inr rfl
    | own => exact .inr rfl
  have hseen (s : Source) (hs : s ≠ .staff) : ∀ d' : Desk, d'.lastRev = d.lastRev →
      d'.seen s = d.seen s := by
    intro d' h
    cases s with
    | staff => exact absurd rfl hs
    | orders => exact h
    | own => rfl
  unfold Desk.lookStaff
  simp only
  split
  · exact ⟨rfl, ⟨rfl, rfl, rfl⟩, by rw [hstage]; rfl, rfl, hlooked, hpassed,
      ⟨rfl, fun s hs => hseen s hs _ rfl⟩, .inl rfl⟩
  · next hsame =>
    have heq : d.lastStaffRev = uint32 d.hub.world.ctx.staffRevision := (not_not.mp hsame).symm
    exact ⟨rfl, ⟨rfl, rfl, rfl⟩, by rw [hstage]; rfl, rfl, hlooked, hpassed,
      ⟨heq, fun s hs => hseen s hs _ rfl⟩, .inr ⟨rfl, heq⟩⟩

/-- Either the tab is dirty, or it has been a second on the sales tab, and the drawing begins; or the
loop waits. -/
theorem startDrawing_cases (d : Desk) (now : Int) :
    (∃ last, d.startDrawing now = { d with
      lastAutoRedraw := last
      pos := { d.pos with dirty := false }
      stage := .drawing (tabFields d.pos d.rows d.cols)
      screen := []
      screenRows := d.rows
      screenCols := d.cols }) ∨
    (d.pos.dirty = false ∧ d.startDrawing now = { d with stage := .waiting }) := by
  unfold Desk.startDrawing
  simp only
  split
  · exact .inl ⟨now, rfl⟩
  · cases hdirty : d.pos.dirty with
    | true => exact .inl ⟨d.lastAutoRedraw, rfl⟩
    | false => exact .inr ⟨rfl, rfl⟩

theorem sound_startDrawing {d : Desk} (h : d.Sound log) (hstage : d.stage = .redraw) (now : Int) :
    (d.startDrawing now).Sound log := by
  have hlooked (source : Source) : d.stage.looked source = true := by
    rw [hstage]
    cases source <;> rfl
  rcases startDrawing_cases d now with ⟨last, heq⟩ | ⟨hclean, heq⟩
  · rw [heq]
    refine ⟨h.threads, h.seen, fun _ => rfl, ?_⟩
    intro source _
    apply (h.since source (.inl (hlooked source))).quiet le_rfl
    intro _ _ _
    refine ⟨rfl, ?_⟩
    intro p hp
    cases hp
  · rw [heq]
    refine ⟨h.threads, h.seen, fun _ => hclean, ?_⟩
    intro source _
    apply (h.since source (.inl (hlooked source))).quiet le_rfl
    intro hbefore _ hsettled
    have hshows := hbefore hclean hsettled
    refine ⟨?_, hshows.current⟩
    have hfields := hshows.fields
    rw [hstage] at hfields
    exact hfields

/-- The next field is printed from what there is now. -/
theorem sound_draw {d : Desk} (h : d.Sound log) {field : Field} {todo : List Field}
    (hstage : d.stage = .drawing (field :: todo)) (now : Int) :
    ({ d with
      stage := .drawing todo
      screen := d.screen ++ [⟨field, now, field.read log d.hub.world now⟩] } : Desk).Sound log := by
  have hclean : d.pos.dirty = false := h.clean (by rw [hstage]; rfl)
  refine ⟨h.threads, h.seen, fun _ => hclean, ?_⟩
  intro source _
  apply (h.since source (.inr hclean)).quiet le_rfl
  intro hbefore _ hsettled
  have hshows := hbefore hclean hsettled
  constructor
  · have hfields := hshows.fields
    rw [hstage] at hfields
    rw [← hfields]
    simp [LoopStage.todo]
  · intro p hp hsource
    rcases List.mem_append.mp hp with hp | hp
    · exact hshows.current p hp hsource
    · rw [List.mem_singleton.mp hp]

/-- A turn of the loop begins or ends, and the screen stays. -/
theorem sound_stage {d : Desk} (h : d.Sound log) {stage : LoopStage} (hclean : d.pos.dirty = false)
    (htodo : stage.todo = d.stage.todo) : ({ d with stage := stage } : Desk).Sound log := by
  refine ⟨h.threads, h.seen, fun _ => hclean, ?_⟩
  intro source _
  apply (h.since source (.inr hclean)).quiet le_rfl
  intro hbefore _ hsettled
  have hshows := hbefore hclean hsettled
  refine ⟨?_, hshows.current⟩
  rw [← hshows.fields, ← htodo]

theorem sound_loop {d : Desk} (h : d.Sound log) (hpassed : ∀ source, d.passed source < 4294967296)
    (rows cols now : Int) : (loopStep log rows cols now d).Sound log := by
  unfold loopStep
  split
  · next hstage =>
    split
    · exact h
    · exact (looks_orders hstage rows cols).sound h (hpassed .orders)
  · next hstage => exact (looks_staff hstage).sound h (hpassed .staff)
  · next hstage => exact sound_startDrawing h hstage now
  · next hstage => exact sound_stage h (h.clean (by rw [hstage]; rfl)) (by rw [hstage]; rfl)
  · next field todo hstage => exact sound_draw h hstage now
  · next hstage => exact sound_stage h (h.clean (by rw [hstage]; rfl)) (by rw [hstage]; rfl)

/-- What the invariant says while the loop waits. -/
theorem Desk.Sound.waiting {d : Desk} (h : d.Sound log) (hstage : d.stage = .waiting)
    (hpassed : ∀ source, d.passed source < 4294967296) :
    d.screen.map (·.field) = tabFields d.pos d.screenRows d.screenCols ∧
      ∀ p ∈ d.screen, revision d.hub.world p.field.source = d.seen p.field.source →
        d.hub.Settled p.field.source → p.shown = p.field.read log d.hub.world p.time := by
  have hclean : d.pos.dirty = false := h.clean (by rw [hstage]; rfl)
  have hsame (source : Source) (hrev : revision d.hub.world source = d.seen source)
      (hsettled : d.hub.Settled source) : d.Shows log source :=
    (h.since source (.inr hclean)).same (h.seen source) (hpassed source) hrev hclean hsettled
  constructor
  · have hfields := (hsame .own rfl (by rintro ⟨⟩)).fields
    rw [hstage] at hfields
    simpa [LoopStage.todo] using hfields
  · intro p hp hrev hsettled
    exact (hsame p.field.source hrev hsettled).current p hp rfl

/-- The loop itself counts nothing. -/
theorem passed_loop (rows cols now : Int) (d : Desk) (source : Source) :
    (loopStep log rows cols now d).passed source ≤ d.passed source := by
  have hupdate (looked : Source) : Function.update d.passed looked 0 source ≤ d.passed source := by
    by_cases h : source = looked
    · rw [h, Function.update_self]
      exact Nat.zero_le _
    · rw [Function.update_of_ne h]
  unfold loopStep
  split
  · split
    · exact le_rfl
    · unfold Desk.lookOrders
      simp only
      split <;> exact hupdate .orders
  · unfold Desk.lookStaff
    simp only
    split <;> exact hupdate .staff
  · rcases startDrawing_cases d now with ⟨last, heq⟩ | ⟨-, heq⟩ <;> rw [heq]
  · exact le_rfl
  · exact le_rfl
  · exact le_rfl

/-- Turns of the loop on a narrow terminal. -/
def turns (n : Nat) (now : Int) : List DeskAction := List.replicate n (.loop 24 20 now)

section Alone

variable (log) (rows cols now : Int)

/-- From `d` to `d'` only the loop went on. -/
def Alone (d d' : Desk) : Prop :=
  ∃ n, runDesk log d (List.replicate n (.loop rows cols now)) = d'

variable {log rows cols now} {d d' d'' : Desk}

theorem Alone.refl (d : Desk) : Alone log rows cols now d d := ⟨0, rfl⟩

theorem Alone.next (h : Alone log rows cols now (loopStep log rows cols now d) d') :
    Alone log rows cols now d d' := by
  obtain ⟨n, rfl⟩ := h
  exact ⟨n + 1, rfl⟩

theorem Alone.trans (h : Alone log rows cols now d d') (h' : Alone log rows cols now d' d'') :
    Alone log rows cols now d d'' := by
  obtain ⟨n, rfl⟩ := h
  obtain ⟨m, rfl⟩ := h'
  refine ⟨n + m, ?_⟩
  rw [List.replicate_add]
  exact Runs.run_append _ _ _ _

theorem Alone.sound (h : Alone log rows cols now d d') (hd : d.Sound log)
    (hpassed : ∀ source, d.passed source < 4294967296) :
    d'.Sound log ∧ ∀ source, d'.passed source < 4294967296 := by
  obtain ⟨n, rfl⟩ := h
  induction n generalizing d with
  | zero => exact ⟨hd, hpassed⟩
  | succ n ih =>
    apply ih (sound_loop hd hpassed rows cols now)
    intro source
    exact Nat.lt_of_le_of_lt (passed_loop rows cols now d source) (hpassed source)

end Alone

end TableOrder
