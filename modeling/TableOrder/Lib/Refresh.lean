import Mathlib.Logic.Relation

/-!
# A view that is refreshed on request

A server has a value that changes, and a subscriber has a view of it. After a change the server posts a
notice. The subscriber answers a notice with a request, and the server a request with the image of its
value. It takes the image at one moment (`Step.build`) and sends it at a later one (`Step.send`), with
changes and notices between, so an answer can be out of date when it leaves.

The view still gets there: `Tracks` says that it will be right when everything under way has arrived,
or that something is under way that will lead to another answer. Every step keeps it
(`Step.tracks`), and with nothing under way it says that the view is right (`Tracks.settled`).
-/

namespace Refresh

/-- What the server sends, as far as the view is concerned. -/
inductive Msg (β : Type) where
  | notice
  | answer (b : β)
  | other

structure State (α β : Type) where
  current : α
  /-- There was a change, and its notice is still to be posted. -/
  due : Bool
  view : β
  /-- Sent and not received yet. -/
  wire : List (Msg β)
  /-- Built and not sent yet. -/
  built : List (Msg β)
  /-- A request is on its way. -/
  asked : Prop

variable {α β : Type}

/-- The view after a message. -/
def receive (view : β) : Msg β → β
  | .answer b => b
  | _ => view

def Msg.isAnswer : Msg β → Bool
  | .answer _ => true
  | _ => false

/-- The view when all these have arrived. -/
def eventually (view : β) (msgs : List (Msg β)) : β := msgs.foldl receive view

theorem eventually_append (view : β) (ms ms' : List (Msg β)) :
    eventually view (ms ++ ms') = eventually (eventually view ms) ms' := List.foldl_append

theorem eventually_other {ms : List (Msg β)} (h : ∀ m ∈ ms, m.isAnswer = false) (view : β) :
    eventually view ms = view := by
  induction ms with
  | nil => rfl
  | cons m ms ih =>
    have hm := h m List.mem_cons_self
    have hrest := ih fun m' hm' => h m' (List.mem_cons_of_mem m hm')
    cases m with
    | answer b => cases hm
    | notice => exact hrest
    | other => exact hrest

/-! ## Steps -/

variable (image : α → β)

inductive Step : State α β → State α β → Prop
  /-- The value changes. -/
  | change (s : State α β) (a : α) : Step s { s with current := a, due := true }
  /-- The notice of a change, with anything else but an answer. -/
  | post (s : State α β) (ms : List (Msg β)) (due : Bool) : (∀ m ∈ ms, m.isAnswer = false) →
      (s.due = true → due = false → .notice ∈ ms) →
      Step s { s with due := due, wire := s.wire ++ ms }
  /-- An answer is built, and it settles the request. -/
  | build (s : State α β) (asked : Prop) :
      Step s { s with built := s.built ++ [.answer (image s.current)], asked := asked }
  /-- Something else is built. -/
  | prepare (s : State α β) (ms : List (Msg β)) : (∀ m ∈ ms, m.isAnswer = false) →
      Step s { s with built := s.built ++ ms }
  | send (s : State α β) (m : Msg β) (ms : List (Msg β)) : s.built = m :: ms →
      Step s { s with wire := s.wire ++ [m], built := ms }
  /-- The next message arrives, and a notice is answered with a request. -/
  | receive (s : State α β) (m : Msg β) (ms : List (Msg β)) (asked : Prop) : s.wire = m :: ms →
      (s.asked ∨ m = .notice → asked) →
      Step s { s with view := Refresh.receive s.view m, wire := ms, asked := asked }
  /-- A request without a notice. -/
  | ask (s : State α β) (asked : Prop) : (s.asked → asked) → Step s { s with asked := asked }

/-! ## The invariant -/

/-- The view will be right, or there will be another answer. -/
def Tracks (s : State α β) : Prop :=
  eventually s.view (s.wire ++ s.built) = image s.current ∨
    s.due = true ∨ .notice ∈ s.wire ∨ s.asked

variable {image}

theorem Step.tracks {s s' : State α β} (h : Step image s s') (hs : Tracks image s) :
    Tracks image s' := by
  cases h with
  | change a => exact .inr (.inl rfl)
  | post ms due hms hdue =>
    -- either the notice is in these messages, or it is not due, or it still is
    rcases hs with hview | hdue' | hwire | hasked
    · left
      show eventually s.view (s.wire ++ ms ++ s.built) = image s.current
      rw [eventually_append, eventually_append, eventually_other hms, ← eventually_append]
      exact hview
    · right
      cases due with
      | true => exact .inl rfl
      | false => exact .inr (.inl (List.mem_append_right _ (hdue hdue' rfl)))
    · exact .inr (.inr (.inl (List.mem_append_left _ hwire)))
    · exact .inr (.inr (.inr hasked))
  | build asked =>
    -- whatever is under way, this answer comes last
    left
    show eventually s.view (s.wire ++ (s.built ++ [.answer (image s.current)])) = image s.current
    rw [← List.append_assoc, eventually_append]
    rfl
  | prepare ms hms =>
    rcases hs with hview | hrest
    · left
      show eventually s.view (s.wire ++ (s.built ++ ms)) = image s.current
      rw [← List.append_assoc, eventually_append, eventually_other hms]
      exact hview
    · exact .inr hrest
  | send m ms hbuilt =>
    rcases hs with hview | hdue | hwire | hasked
    · left
      show eventually s.view (s.wire ++ [m] ++ ms) = image s.current
      rw [List.append_assoc, List.singleton_append, ← hbuilt]
      exact hview
    · exact .inr (.inl hdue)
    · exact .inr (.inr (.inl (List.mem_append_left _ hwire)))
    · exact .inr (.inr (.inr hasked))
  | receive m ms asked hwire hask =>
    -- a notice that arrives becomes a request
    rcases hs with hview | hdue | hmem | hasked
    · left
      rw [hwire] at hview
      exact hview
    · exact .inr (.inl hdue)
    · rw [hwire] at hmem
      rcases List.mem_cons.mp hmem with hm | hmem
      · exact .inr (.inr (.inr (hask (.inr hm.symm))))
      · exact .inr (.inr (.inl hmem))
    · exact .inr (.inr (.inr (hask (.inl hasked))))
  | ask asked hask =>
    rcases hs with hview | hdue | hwire | hasked
    · exact .inl hview
    · exact .inr (.inl hdue)
    · exact .inr (.inr (.inl hwire))
    · exact .inr (.inr (.inr (hask hasked)))

/-- With nothing under way the view is right. -/
theorem Tracks.settled {s : State α β} (h : Tracks image s) (hdue : s.due = false)
    (hwire : s.wire = []) (hbuilt : s.built = []) (hasked : ¬ s.asked) : s.view = image s.current := by
  rcases h with hview | hdue' | hmem | hasked'
  · rw [hwire, hbuilt] at hview
    exact hview
  · rw [hdue] at hdue'
    cases hdue'
  · rw [hwire] at hmem
    cases hmem
  · exact absurd hasked' hasked

/-- A subscriber that has asked will get the value. -/
theorem Tracks.of_asked {s : State α β} (h : s.asked) : Tracks image s := .inr (.inr (.inr h))

end Refresh
