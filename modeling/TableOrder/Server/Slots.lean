import TableOrder.Server.Steps

/-!
# The slots of the clients (`server_register_client`, `server_unregister_fd`)

A broadcast goes to the sockets in the slots in use. Registering a socket takes the first free slot,
and does nothing without one; dropping a socket frees the first slot that has it. So with distinct
sockets in the slots a dropped one is in none (`not_mem_receivers_unregister`).
-/

namespace TableOrder

open CLib

/-! ## The sockets of a broadcast -/

theorem mem_receivers {ctx : ServerContext} {fd : Int} :
    fd ∈ ctx.receivers ↔ ∃ (j : Nat) (c : ClientSlot), ctx.clients.slots[j]? = some c ∧
      c.inUse = true ∧ c.fd = fd := by
  simp only [ServerContext.receivers, List.mem_map, List.mem_filter]
  constructor
  · rintro ⟨c, ⟨hc, huse⟩, hfd⟩
    obtain ⟨j, hj⟩ := List.mem_iff_getElem?.mp hc
    exact ⟨j, c, hj, huse, hfd⟩
  · rintro ⟨j, c, hj, huse, hfd⟩
    exact ⟨c, ⟨List.mem_of_getElem? hj, huse⟩, hfd⟩

/-- A change of one slot that belongs to this socket neither before nor after. -/
theorem mem_receivers_modify {ctx : ServerContext} {fd : Int} {i : Nat} {c : ClientSlot}
    {f : ClientSlot → ClientSlot} (hc : ctx.clients.slots[i]? = some c)
    (hold : ¬ (c.inUse = true ∧ c.fd = fd)) (hnew : ¬ ((f c).inUse = true ∧ (f c).fd = fd)) :
    fd ∈ ({ ctx with clients := ctx.clients.modify i f }).receivers ↔ fd ∈ ctx.receivers := by
  rw [mem_receivers, mem_receivers]
  have hat (j : Nat) : (ctx.clients.modify i f).slots[j]? =
      if i = j then some (f c) else ctx.clients.slots[j]? := by
    show (ctx.clients.slots.modify i f)[j]? = _
    have hlt := (List.getElem?_eq_some_iff.mp hc).1
    rw [modify_eq_set hc, List.getElem?_set, if_pos hlt]
  constructor
  · rintro ⟨j, d, hj, hd⟩
    rw [hat] at hj
    split at hj
    · cases hj
      exact absurd hd hnew
    · exact ⟨j, d, hj, hd⟩
  · rintro ⟨j, d, hj, hd⟩
    refine ⟨j, d, ?_, hd⟩
    rw [hat, if_neg]
    · exact hj
    · rintro rfl
      rw [hc] at hj
      cases hj
      exact hold hd

theorem mem_receivers_register {ctx : ServerContext} {fd fd' : Int} (hne : fd' ≠ fd)
    (kind : ClientKind) (tableId : Int) :
    fd ∈ (serverRegisterClient ctx fd' kind tableId).receivers ↔ fd ∈ ctx.receivers := by
  unfold serverRegisterClient
  split
  · rfl
  · next i hi =>
    obtain ⟨hlt, hfree, -⟩ := List.findIdx?_eq_some_iff_getElem.mp hi
    apply mem_receivers_modify (List.getElem?_eq_getElem hlt)
    · rintro ⟨huse, -⟩
      simp [huse] at hfree
    · rintro ⟨-, hfd⟩
      exact hne hfd

theorem mem_receivers_unregister {ctx : ServerContext} {fd fd' : Int} (hne : fd' ≠ fd) :
    fd ∈ (serverUnregisterFd ctx fd').receivers ↔ fd ∈ ctx.receivers := by
  unfold serverUnregisterFd
  split
  · rfl
  · next i hi =>
    obtain ⟨hlt, hfd, -⟩ := List.findIdx?_eq_some_iff_getElem.mp hi
    rw [Bool.and_eq_true, beq_iff_eq] at hfd
    apply mem_receivers_modify (List.getElem?_eq_getElem hlt)
    · rintro ⟨-, h⟩
      exact hne (hfd.2.symm.trans h)
    · rintro ⟨huse, -⟩
      cases huse

/-- With a free slot a client is registered. -/
theorem mem_receivers_enter {ctx : ServerContext} (hfree : ∃ c ∈ ctx.clients.slots, c.inUse = false)
    (fd : Int) (kind : ClientKind) (tableId : Int) :
    fd ∈ (serverRegisterClient ctx fd kind tableId).receivers := by
  obtain ⟨c, hc, huse⟩ := hfree
  unfold serverRegisterClient
  split
  · next hnone =>
    rw [List.findIdx?_eq_none_iff] at hnone
    have := hnone c hc
    simp [huse] at this
  · next i hi =>
    obtain ⟨hlt, -, -⟩ := List.findIdx?_eq_some_iff_getElem.mp hi
    refine mem_receivers.mpr ⟨i, ⟨fd, true, kind, tableId⟩, ?_, rfl, rfl⟩
    show (ctx.clients.slots.modify i _)[i]? = _
    rw [modify_eq_set (List.getElem?_eq_getElem hlt), List.getElem?_set_self hlt]

theorem receivers_of_clients {ctx ctx' : ServerContext} (h : ctx'.clients = ctx.clients) :
    ctx'.receivers = ctx.receivers := by
  rw [ServerContext.receivers, h]
  rfl

/-! ## No socket twice -/

/-- No socket is in two slots. -/
def SlotsDistinct (ctx : ServerContext) : Prop :=
  ∀ (i j : Nat) (c d : ClientSlot), ctx.clients.slots[i]? = some c → ctx.clients.slots[j]? = some d →
    c.inUse = true → d.inUse = true → c.fd = d.fd → i = j

theorem slotsDistinct_of_clients {ctx ctx' : ServerContext} (h : ctx'.clients = ctx.clients)
    (hctx : SlotsDistinct ctx) : SlotsDistinct ctx' := by
  unfold SlotsDistinct
  rw [h]
  exact hctx

/-- One slot is free now, or has a socket that is in no other. -/
theorem SlotsDistinct.modify {ctx : ServerContext} (h : SlotsDistinct ctx) {i : Nat}
    {c : ClientSlot} {f : ClientSlot → ClientSlot} (hc : ctx.clients.slots[i]? = some c)
    (hnew : (f c).inUse = true → (f c).fd ∉ ctx.receivers) :
    SlotsDistinct { ctx with clients := ctx.clients.modify i f } := by
  have hlt := (List.getElem?_eq_some_iff.mp hc).1
  have hat (j : Nat) : (ctx.clients.modify i f).slots[j]? =
      if i = j then some (f c) else ctx.clients.slots[j]? := by
    show (ctx.clients.slots.modify i f)[j]? = _
    rw [modify_eq_set hc, List.getElem?_set, if_pos hlt]
  intro j k d e hj hk hd he hfd
  simp only at hj hk
  rw [hat] at hj hk
  split at hj <;> split at hk
  · next hij hik => rw [← hij, hik]
  · cases hj
    exact absurd (mem_receivers.mpr ⟨k, e, hk, he, hfd.symm⟩) (hnew hd)
  · cases hk
    exact absurd (mem_receivers.mpr ⟨j, d, hj, hd, hfd⟩) (hnew he)
  · exact h j k d e hj hk hd he hfd

theorem SlotsDistinct.register {ctx : ServerContext} (h : SlotsDistinct ctx) {fd : Int}
    (hout : fd ∉ ctx.receivers) (kind : ClientKind) (tableId : Int) :
    SlotsDistinct (serverRegisterClient ctx fd kind tableId) := by
  unfold serverRegisterClient
  split
  · exact h
  · next i hi =>
    obtain ⟨hlt, -, -⟩ := List.findIdx?_eq_some_iff_getElem.mp hi
    exact h.modify (List.getElem?_eq_getElem hlt) fun _ => hout

theorem SlotsDistinct.unregister {ctx : ServerContext} (h : SlotsDistinct ctx) (fd : Int) :
    SlotsDistinct (serverUnregisterFd ctx fd) := by
  unfold serverUnregisterFd
  split
  · exact h
  · next i hi =>
    obtain ⟨hlt, -, -⟩ := List.findIdx?_eq_some_iff_getElem.mp hi
    exact h.modify (List.getElem?_eq_getElem hlt) fun huse => by cases huse

theorem not_mem_receivers_unregister {ctx : ServerContext} (h : SlotsDistinct ctx) (fd : Int) :
    fd ∉ (serverUnregisterFd ctx fd).receivers := by
  intro hmem
  obtain ⟨j, d, hj, hd, hfd⟩ := mem_receivers.mp hmem
  unfold serverUnregisterFd at hj
  split at hj
  · next hnone =>
    have hno := List.findIdx?_eq_none_iff.mp hnone d (List.mem_of_getElem? hj)
    simp [hd, hfd] at hno
  · next i hi =>
    obtain ⟨hlt, hfound, -⟩ := List.findIdx?_eq_some_iff_getElem.mp hi
    rw [Bool.and_eq_true, beq_iff_eq] at hfound
    have hc : ctx.clients.slots[i]? = some ctx.clients.slots[i] := List.getElem?_eq_getElem hlt
    change (ctx.clients.slots.modify i _)[j]? = some d at hj
    rw [modify_eq_set hc, List.getElem?_set, if_pos hlt] at hj
    split at hj
    · -- the freed slot
      cases hj
      cases hd
    · next hne => exact hne (h i j _ d hc hj hfound.1 hd (hfound.2.trans hfd.symm))

theorem clientTable_zero_receivers {ctx : ServerContext} (h : ctx.clients = ClientTable.zero) :
    ctx.receivers = [] ∧ SlotsDistinct ctx := by
  have hfree : ∀ c ∈ ctx.clients.slots, c.inUse = false := by
    intro c hc
    rw [h] at hc
    rw [List.eq_of_mem_replicate hc]
  constructor
  · rw [ServerContext.receivers, List.map_eq_nil_iff, List.filter_eq_nil_iff]
    intro c hc
    rw [hfree c hc]
    decide
  · intro i j c d hc _ huse
    rw [hfree c (List.mem_of_getElem? hc)] at huse
    cases huse

end TableOrder
