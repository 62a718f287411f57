import ServerLink.Proofs.Subscription.Mailbox
import ServerLink.Proofs.Table
import ServerLink.Subscription.Fanout

/-!
# Facts about subscriptions

A key stands in one channel at most, a mailbox is open as long as its key stands in one, and after
the end of all subscriptions there are no channels (`Fanout.Inv`). What happens to a mailbox that is
closed is up to its subscriber alone: others leave it as it is, and its subscriber finds the values
that are in it, in order (`step_closed`).
-/

namespace ServerLink.Fanout

/-- The keys of all open subscriptions. -/
def openKeys (f : Fanout) : List Nat := (f.channels.map (·.2)).flatten

/-- What holds of the subscriptions at any time. -/
structure Inv (f : Fanout) : Prop where
  collections : (Table.keys f.channels).Nodup
  once : f.openKeys.Nodup
  boxes : (Table.keys f.mailboxes).Nodup
  issued : ∀ k ∈ f.openKeys, k ≤ f.lastKey
  stored : ∀ k ∈ Table.keys f.mailboxes, k ≤ f.lastKey
  isOpen : ∀ k m, (k, m) ∈ f.mailboxes → (m.closed = false ↔ k ∈ f.openKeys)
  closed : f.closed = true → f.channels = []

variable {f : Fanout}

/-! ## Channels -/

section
variable {channels : Table String (List Nat)} (h : (Table.keys channels).Nodup)
include h

theorem flatten_split (collection : String) : (channels.map (·.2)).flatten.Perm
    ((channels.lookup collection).getD [] ++
      ((Table.erase channels collection).map (·.2)).flatten) := by
  cases hl : channels.lookup collection with
  | none => rw [Table.erase_of_not_mem (Table.lookup_eq_none.1 hl)]; exact .refl _
  | some keys => exact ((Table.perm_erase h hl).map (·.2)).flatten

theorem keys_setSubscribers (collection : String) (keys : List Nat) :
    (Table.keys (setSubscribers channels collection keys)).Nodup := by
  unfold setSubscribers
  split
  · exact Table.nodup_keys_erase h
  · split
    · rw [Table.keys_mapIf (p := (· = collection)) (g := fun _ => keys)]
      exact h
    · rename_i hl
      rw [Table.lookup_isSome] at hl
      rw [Table.keys, List.map_append, List.nodup_append]
      refine ⟨h, by simp, fun x hx y hy he => hl ?_⟩
      simp only [List.map_singleton, List.mem_singleton] at hy
      rw [← hy, ← he]
      exact hx

/-- Only one collection's keys change. -/
theorem flatten_setSubscribers (collection : String) (keys : List Nat) :
    ((setSubscribers channels collection keys).map (·.2)).flatten.Perm
      (keys ++ ((Table.erase channels collection).map (·.2)).flatten) := by
  have hn := keys_setSubscribers h collection keys
  unfold setSubscribers at hn ⊢
  split
  · rename_i he
    rw [List.isEmpty_iff.1 he]
    exact .refl _
  · rename_i he
    rw [if_neg he] at hn
    split
    · rename_i hl
      rw [if_pos hl] at hn
      obtain ⟨old, hold⟩ := Option.isSome_iff_exists.1 hl
      have hlook : (channels.map fun e => if e.1 = collection then (e.1, keys) else e).lookup
          collection = some keys := by
        rw [Table.lookup_mapIf (p := (· = collection)) (g := fun _ => keys), hold]
        simp
      have herase : Table.erase (channels.map fun e => if e.1 = collection then (e.1, keys) else e)
          collection = Table.erase channels collection := by
        rw [Table.erase, List.filter_map, Table.erase]
        have hid : ∀ e ∈ channels.filter (fun e => !(e.1 == collection)),
            (if e.1 = collection then (e.1, keys) else e) = e := by
          intro e hm
          have hne : e.1 ≠ collection := by simpa using (List.mem_filter.1 hm).2
          exact if_neg hne
        rw [List.filter_congr (q := fun e => !(e.1 == collection)) fun e _ => ?_,
          List.map_congr_left hid, List.map_id']
        simp only [Function.comp_apply]
        split <;> rfl
      have := ((Table.perm_erase hn hlook).map (·.2)).flatten
      rwa [herase] at this
    · rename_i hl
      rw [Table.erase_of_not_mem (mt Table.lookup_isSome.2 hl), List.map_append,
        List.flatten_append]
      simpa using List.perm_append_comm

end

theorem mem_openKeys {k : Nat} {collection : String} (h : k ∈ f.subscribers collection) :
    k ∈ f.openKeys := by
  rw [subscribers] at h
  cases hl : f.channels.lookup collection with
  | none => rw [hl] at h; cases h
  | some keys =>
    rw [hl] at h
    exact List.mem_flatten.2 ⟨keys, List.mem_map.2 ⟨_, Table.mem_of_lookup hl, rfl⟩, h⟩

/-! ## What one event does -/

theorem register_closed (h : f.closed = true) (collection : String) (capacity : Nat) :
    f.register collection capacity = .error (.closed "subscriptions are closed") := by
  simp [register, h]

theorem register_open (h : f.closed = false) (collection : String) (capacity : Nat) :
    f.register collection capacity = .ok (⟨collection, f.lastKey + 1⟩, { f with
      lastKey := f.lastKey + 1
      channels := setSubscribers f.channels collection
        (f.subscribers collection ++ [f.lastKey + 1])
      mailboxes := f.mailboxes ++ [(f.lastKey + 1, .ofCapacity capacity)] }) := by
  simp [register, h]

/-- A registration hands out the next key, while subscriptions are admitted. -/
theorem register_eq_ok {collection : String} {capacity : Nat} {s : Subscription} {g : Fanout}
    (h : f.register collection capacity = .ok (s, g)) :
    f.closed = false ∧ s = ⟨collection, f.lastKey + 1⟩ := by
  cases hc : f.closed with
  | true =>
    rw [register_closed hc] at h
    cases h
  | false =>
    rw [register_open hc] at h
    cases h
    exact ⟨rfl, rfl⟩

theorem remove_cases (f : Fanout) (s : Subscription) :
    (s.key ∉ f.subscribers s.collection ∧ f.remove s = (f, false)) ∨
    (s.key ∈ f.subscribers s.collection ∧ f.remove s = (({ f with
      channels := setSubscribers f.channels s.collection
        ((f.subscribers s.collection).filter (· ≠ s.key)) }).updateMailbox s.key
          Mailbox.close, true)) := by
  by_cases h : s.key ∈ f.subscribers s.collection
  · exact .inr ⟨h, by simp [remove, h]⟩
  · exact .inl ⟨h, by simp [remove, h]⟩

section
variable (f : Fanout) (keys : List Nat) (change : Mailbox → Mailbox)

theorem updateMailbox_eq (key : Nat) :
    f.updateMailbox key change = f.updateMailboxes [key] change := by
  simp [updateMailbox, updateMailboxes]

theorem lookup_updateMailboxes (k : Nat) : (f.updateMailboxes keys change).mailboxes.lookup k =
    (f.mailboxes.lookup k).map fun m => if k ∈ keys then change m else m :=
  Table.lookup_mapIf (p := (· ∈ keys))

theorem keys_updateMailboxes :
    Table.keys (f.updateMailboxes keys change).mailboxes = Table.keys f.mailboxes :=
  Table.keys_mapIf (p := (· ∈ keys))

theorem mem_updateMailboxes {k : Nat} {m : Mailbox}
    (h : (k, m) ∈ (f.updateMailboxes keys change).mailboxes) :
    ∃ a, (k, a) ∈ f.mailboxes ∧ m = if k ∈ keys then change a else a :=
  Table.mem_mapIf (p := (· ∈ keys)) h

end

theorem remove_closed (f : Fanout) (s : Subscription) : (f.remove s).1.closed = f.closed := by
  rcases remove_cases f s with ⟨-, hs⟩ | ⟨-, hs⟩ <;> rw [hs]
  rfl

theorem read_closed (f : Fanout) (s : Subscription) (how : Mailbox → Mailbox × Mailbox.Found) :
    (f.read s how).1.closed = f.closed := by
  unfold read
  split <;> rfl

/-- Only the end of all subscriptions keeps others from being admitted. -/
theorem closed_step (f : Fanout) (e : Event) : (f.step e).1.closed =
    match e with
    | .closeAll => true
    | _ => f.closed := by
  cases e with
  | register collection capacity =>
    cases hc : f.closed with
    | true => simp [step, register_closed hc, hc]
    | false => simp [step, register_open hc, hc]
  | remove s => exact remove_closed f s
  | act s a =>
    cases a with
    | close | discard => exact remove_closed f s
    | take | look | poll => exact read_closed f s _
    | lieDown | stopWaiting => rfl
  | deliver _ _ | closeAll => rfl

/-! ## The invariant -/

namespace Inv

theorem empty : Inv {} where
  collections := List.nodup_nil
  once := List.nodup_nil
  boxes := List.nodup_nil
  issued := by simp [openKeys]
  stored := by simp [Table.keys]
  isOpen := by simp
  closed := fun _ => rfl

variable (h : f.Inv)
include h

theorem openKeys_register (collection : String) : ((setSubscribers f.channels collection
    (f.subscribers collection ++ [f.lastKey + 1])).map (·.2)).flatten.Perm
      (f.openKeys ++ [f.lastKey + 1]) := by
  refine (flatten_setSubscribers h.collections collection _).trans ?_
  rw [List.append_assoc]
  refine (List.Perm.append_left _ List.perm_append_comm).trans ?_
  rw [← List.append_assoc]
  exact (flatten_split h.collections collection).symm.append_right _

theorem openKeys_remove {s : Subscription} (hs : s.key ∈ f.subscribers s.collection) :
    ((setSubscribers f.channels s.collection
      ((f.subscribers s.collection).filter (· ≠ s.key))).map (·.2)).flatten.Perm
        (f.openKeys.filter (· ≠ s.key)) := by
  have hsplit := flatten_split h.collections s.collection
  have hrest : s.key ∉ ((Table.erase f.channels s.collection).map (·.2)).flatten := fun hm =>
    (List.nodup_append.1 (hsplit.nodup_iff.1 h.once)).2.2 s.key hs s.key hm rfl
  have hkeep : ((Table.erase f.channels s.collection).map (·.2)).flatten.filter (· ≠ s.key) =
      ((Table.erase f.channels s.collection).map (·.2)).flatten :=
    List.filter_eq_self.2 fun k hk => decide_eq_true fun he => hrest (he ▸ hk)
  have hfilter := hsplit.filter (· ≠ s.key)
  rw [List.filter_append, hkeep] at hfilter
  exact (flatten_setSubscribers h.collections s.collection _).trans hfilter.symm

theorem register (collection : String) (capacity : Nat) :
    (f.step (.register collection capacity)).1.Inv := by
  cases hc : f.closed with
  | true => simp only [step, register_closed hc]; exact h
  | false =>
    simp only [step, register_open hc]
    have hp := h.openKeys_register collection
    have hnew : f.lastKey + 1 ∉ f.openKeys := fun hm => by
      have := h.issued _ hm
      omega
    have hbox : f.lastKey + 1 ∉ Table.keys f.mailboxes := fun hm => by
      have := h.stored _ hm
      omega
    have hkeys : Table.keys (f.mailboxes ++ [(f.lastKey + 1, Mailbox.ofCapacity capacity)]) =
        Table.keys f.mailboxes ++ [f.lastKey + 1] := by simp [Table.keys]
    have hmem : ∀ k, k ∈ ((setSubscribers f.channels collection
        (f.subscribers collection ++ [f.lastKey + 1])).map (·.2)).flatten ↔
          k ∈ f.openKeys ∨ k = f.lastKey + 1 := fun k => by rw [hp.mem_iff]; simp
    refine ⟨keys_setSubscribers h.collections _ _, hp.nodup_iff.2 ?_, ?_, fun k hk => ?_,
      fun k hk => ?_, fun k m hm => ?_, fun ht => ?_⟩
    · exact List.nodup_append.2 ⟨h.once, by simp, fun x hx y hy he => hnew (by simp_all)⟩
    · rw [hkeys]
      exact List.nodup_append.2 ⟨h.boxes, by simp, fun x hx y hy he => hbox (by simp_all)⟩
    · rcases (hmem k).1 hk with hk | hk
      · exact Nat.le_succ_of_le (h.issued k hk)
      · exact Nat.le_of_eq hk
    · rw [hkeys, List.mem_append, List.mem_singleton] at hk
      rcases hk with hk | hk
      · exact Nat.le_succ_of_le (h.stored k hk)
      · exact Nat.le_of_eq hk
    · refine Iff.trans ?_ (hmem k).symm
      rcases List.mem_append.1 hm with hm | hm
      · have hk := h.stored k (List.mem_map.2 ⟨_, hm, rfl⟩)
        rw [h.isOpen k m hm]
        exact ⟨.inl, fun hk' => hk'.resolve_right (by omega)⟩
      · cases List.mem_singleton.1 hm
        simp
    · rw [hc] at ht; cases ht

/-- A change of mailboxes that closes none of them. -/
theorem change (keys : List Nat) {g : Mailbox → Mailbox} (hg : ∀ m, (g m).closed = m.closed) :
    (f.updateMailboxes keys g).Inv where
  collections := h.collections
  once := h.once
  boxes := by rw [keys_updateMailboxes]; exact h.boxes
  issued := h.issued
  stored := by rw [keys_updateMailboxes]; exact h.stored
  isOpen := by
    intro k m hm
    obtain ⟨a, ha, rfl⟩ := mem_updateMailboxes _ _ _ hm
    refine Iff.trans ?_ (h.isOpen k a ha)
    split
    · rw [hg]
    · exact .rfl
  closed := h.closed

theorem remove (s : Subscription) : (f.remove s).1.Inv := by
  rcases remove_cases f s with ⟨-, hs⟩ | ⟨hk, hs⟩ <;> rw [hs]
  · exact h
  · have hp := h.openKeys_remove hk
    rw [updateMailbox_eq]
    refine ⟨keys_setSubscribers h.collections _ _, hp.nodup_iff.2 (h.once.filter _), ?_,
      fun k hk => h.issued k (List.mem_of_mem_filter (hp.mem_iff.1 hk)), ?_, fun k m hm => ?_,
      fun hc => ?_⟩
    · rw [keys_updateMailboxes]; exact h.boxes
    · rw [keys_updateMailboxes]; exact h.stored
    · obtain ⟨a, ha, rfl⟩ := mem_updateMailboxes _ _ _ hm
      refine Iff.trans ?_ hp.mem_iff.symm
      rw [List.mem_filter, ← h.isOpen k a ha]
      by_cases he : k = s.key <;> simp [he]
    · have := h.closed hc
      simp [subscribers, this] at hk

theorem closeAll : f.closeAll.1.Inv := by
  unfold Fanout.closeAll
  refine ⟨List.nodup_nil, List.nodup_nil, ?_, by simp [openKeys, updateMailboxes], ?_,
    fun k m hm => ?_, fun _ => rfl⟩
  · rw [keys_updateMailboxes]; exact h.boxes
  · rw [keys_updateMailboxes]; exact h.stored
  · obtain ⟨a, ha, rfl⟩ := mem_updateMailboxes _ _ _ hm
    have hiff := h.isOpen k a ha
    simp only [openKeys] at hiff
    split
    · simp [openKeys, updateMailboxes]
    · rename_i hk
      simp [openKeys, updateMailboxes, mt hiff.1 hk]

/-- A mailbox can be given up at any time. -/
theorem discard (s : Subscription) : (f.discard s).Inv := by
  have h' := h.remove s
  exact ⟨h'.collections, h'.once, Table.nodup_keys_erase h'.boxes, h'.issued,
    fun k hk => h'.stored k ((Table.erase_sublist.map _).subset hk),
    fun k m hm => h'.isOpen k m (Table.mem_erase.1 hm).1, h'.closed⟩

/-- A read changes the one mailbox that it reads. -/
theorem read_eq {s : Subscription} {m : Mailbox} (hm : f.mailbox? s = some m)
    (how : Mailbox → Mailbox × Mailbox.Found) :
    f.read s how = (f.updateMailboxes [s.key] fun m => (how m).1, (how m).2) := by
  rw [Fanout.read, hm]
  simp only [updateMailbox_eq]
  congr 1
  rw [updateMailboxes, updateMailboxes]
  congr 1
  refine List.map_congr_left fun e he => ?_
  split
  · rename_i hk
    rw [List.mem_singleton] at hk
    have hl := Table.lookup_of_mem h.boxes (k := e.1) (a := e.2) he
    rw [hk] at hl
    rw [mailbox?, hl] at hm
    cases hm
    rfl
  · rfl

theorem read (s : Subscription) {how : Mailbox → Mailbox × Mailbox.Found}
    (hhow : ∀ m, (how m).1.closed = m.closed) : (f.read s how).1.Inv := by
  cases hm : f.mailbox? s with
  | none => rw [Fanout.read, hm]; exact h
  | some m => rw [h.read_eq hm]; exact h.change [s.key] hhow

theorem step (e : Event) : (f.step e).1.Inv := by
  cases e with
  | register collection capacity => exact h.register collection capacity
  | deliver collection v => exact h.change _ fun m => Mailbox.push_closed m v
  | remove s => exact h.remove s
  | closeAll => exact h.closeAll
  | act s a =>
    cases a with
    | close => exact h.remove s
    | discard => exact h.discard s
    | take => exact h.read s Mailbox.take_closed
    | look => exact h.read s Mailbox.look_closed
    | poll => exact h.read s Mailbox.poll_closed
    | lieDown =>
      show (f.updateMailbox s.key Mailbox.lieDown).Inv
      rw [updateMailbox_eq]
      exact h.change _ Mailbox.lieDown_closed
    | stopWaiting =>
      show (f.updateMailbox s.key Mailbox.stopWaiting).Inv
      rw [updateMailbox_eq]
      exact h.change _ Mailbox.stopWaiting_closed

end Inv

/-! ## Closed mailboxes -/

/-- The values that a subscriber finds in its mailbox by an event. -/
def reads (f : Fanout) (key : Nat) : Event → List Json
  | .act s a => if s.key = key then (f.act s a).2.values else []
  | .register _ _ | .deliver _ _ | .remove _ | .closeAll => []

variable {k : Nat} {m : Mailbox}

/-- The end of all subscriptions closes the mailboxes that are open. -/
theorem lookup_closeAll (h : f.Inv) (k : Nat) : f.closeAll.1.mailboxes.lookup k =
    (f.mailboxes.lookup k).map fun m => if m.closed then m else m.close := by
  have hl : f.closeAll.1.mailboxes.lookup k =
      (f.mailboxes.lookup k).map fun m => if k ∈ f.openKeys then m.close else m :=
    lookup_updateMailboxes _ _ _ k
  rw [hl]
  cases hm : f.mailboxes.lookup k with
  | none => rfl
  | some m =>
    have hiff := h.isOpen k m (Table.mem_of_lookup hm)
    by_cases hk : k ∈ f.openKeys
    · simp [hk, hiff.2 hk]
    · have hc : m.closed = true := by simpa using mt hiff.1 hk
      simp [hk, hc]

theorem lookup_updateMailbox_ne {key : Nat} (hm : f.mailboxes.lookup k = some m) (hk : key ≠ k)
    (g : Mailbox → Mailbox) : (f.updateMailbox key g).mailboxes.lookup k = some m := by
  rw [updateMailbox_eq, lookup_updateMailboxes, hm]
  simp [Ne.symm hk]

theorem lookup_updateMailbox_self (hm : f.mailboxes.lookup k = some m) (hc : m.closed = true)
    {g : Mailbox → Mailbox} (hg : ∀ m, (g m).closed = m.closed)
    (hv : ∀ m, (g m).values = m.values) : ∃ m',
      (f.updateMailbox k g).mailboxes.lookup k = some m' ∧ m'.closed = true ∧
        m'.values = m.values := by
  rw [updateMailbox_eq, lookup_updateMailboxes, hm]
  exact ⟨g m, by simp, by rw [hg, hc], hv m⟩

theorem lookup_read_ne {s : Subscription} (hm : f.mailboxes.lookup k = some m) (hk : s.key ≠ k)
    (how : Mailbox → Mailbox × Mailbox.Found) :
    (f.read s how).1.mailboxes.lookup k = some m := by
  cases hs : f.mailbox? s with
  | none => rw [read, hs]; exact hm
  | some n =>
    rw [read, hs]
    exact lookup_updateMailbox_ne hm hk _

section
variable (h : f.Inv) (hm : f.mailboxes.lookup k = some m) (hc : m.closed = true)
include h hm hc

theorem not_mem_openKeys : k ∉ f.openKeys := fun hk => by
  have := (h.isOpen k m (Table.mem_of_lookup hm)).2 hk
  rw [hc] at this
  cases this

theorem lookup_remove (s : Subscription) : (f.remove s).1.mailboxes.lookup k = some m := by
  have hk := not_mem_openKeys h hm hc
  rcases remove_cases f s with ⟨-, hs⟩ | ⟨hs', hs⟩ <;> rw [hs]
  · exact hm
  · have hne : k ≠ s.key := fun he => hk (he ▸ mem_openKeys hs')
    rw [updateMailbox_eq, lookup_updateMailboxes]
    simp [hm, hne]

/-- Only its subscriber changes a mailbox that is closed. -/
theorem lookup_step_other {e : Event} (hno : ∀ s a, e = .act s a → s.key ≠ k) :
    (f.step e).1.mailboxes.lookup k = some m := by
  cases e with
  | register collection capacity =>
    cases hf : f.closed with
    | true => simp only [step, register_closed hf]; exact hm
    | false => simp only [step, register_open hf, List.lookup_append, hm]; rfl
  | deliver collection v =>
    have hk : k ∉ f.subscribers collection :=
      fun hk => not_mem_openKeys h hm hc (mem_openKeys hk)
    show (f.updateMailboxes _ _).mailboxes.lookup k = some m
    rw [lookup_updateMailboxes, hm]
    simp [hk]
  | remove s => exact lookup_remove h hm hc s
  | closeAll => simp [step, lookup_closeAll h, hm, hc]
  | act s a =>
    have hk : s.key ≠ k := hno s a rfl
    cases a with
    | close => exact lookup_remove h hm hc s
    | discard => exact (Table.lookup_erase_ne (Ne.symm hk)).trans (lookup_remove h hm hc s)
    | take => exact lookup_read_ne hm hk _
    | look => exact lookup_read_ne hm hk _
    | poll => exact lookup_read_ne hm hk _
    | lieDown => exact lookup_updateMailbox_ne hm hk _
    | stopWaiting => exact lookup_updateMailbox_ne hm hk _

/-- A read hands out what it takes out of the mailbox. -/
theorem lookup_read {s : Subscription} (hk : s.key = k) {how : Mailbox → Mailbox × Mailbox.Found}
    (hclosed : ∀ m, (how m).1.closed = m.closed)
    (hvalues : ∀ m, (how m).2.values ++ (how m).1.values = m.values) :
    ∃ m', (f.read s how).1.mailboxes.lookup k = some m' ∧ m'.closed = true ∧
      (f.read s how).2.values ++ m'.values = m.values := by
  have hm' : f.mailbox? s = some m := by rw [mailbox?, hk, hm]
  rw [h.read_eq hm', lookup_updateMailboxes, hm, hk]
  exact ⟨(how m).1, by simp, by rw [hclosed, hc], hvalues m⟩

/-- **A closed mailbox keeps its values.** Whatever happens, unless its subscriber gives it up, it
stays closed, and what its subscriber finds are its values in order. -/
theorem step_closed {e : Event} (hd : ∀ s, e = .act s .discard → s.key ≠ k) :
    ∃ m', (f.step e).1.mailboxes.lookup k = some m' ∧ m'.closed = true ∧
      f.reads k e ++ m'.values = m.values := by
  by_cases hno : ∀ s a, e = .act s a → s.key ≠ k
  · refine ⟨m, lookup_step_other h hm hc hno, hc, ?_⟩
    cases e with
    | act s a => simp [reads, hno s a rfl]
    | _ => rfl
  · obtain ⟨s, a, rfl, hk⟩ : ∃ s a, e = .act s a ∧ s.key = k := by
      simpa only [not_forall, not_not, exists_prop] using hno
    simp only [reads, if_pos hk]
    cases a with
    | close => exact ⟨m, lookup_remove h hm hc s, hc, rfl⟩
    | discard => exact absurd hk (hd s rfl)
    | take => exact lookup_read h hm hc hk Mailbox.take_closed Mailbox.take_values
    | look => exact lookup_read h hm hc hk Mailbox.look_closed Mailbox.look_values
    | poll => exact lookup_read h hm hc hk Mailbox.poll_closed Mailbox.poll_values
    | lieDown =>
      subst hk
      exact lookup_updateMailbox_self hm hc Mailbox.lieDown_closed Mailbox.lieDown_values
    | stopWaiting =>
      subst hk
      exact lookup_updateMailbox_self hm hc Mailbox.stopWaiting_closed
        Mailbox.stopWaiting_values

end

end ServerLink.Fanout
