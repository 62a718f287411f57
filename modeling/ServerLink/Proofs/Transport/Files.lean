import ServerLink.Transport

/-!
# Files behind transports

Operations on files go to the service that was given with a transport, each once and as it was
asked, whatever the transport is and whatever has happened to it
(`files_are_left_to_their_service`). Each passes through the transport and its fallback
(`toService_ofService`, `toService_nowhere`). Nothing else goes to the service, and nothing of the
transport depends on it.
-/

namespace ServerLink

variable {σ τ : Type}

/-- The names of the operations on files. -/
def FileRequest.operations : List String :=
  ["write_file", "read_file", "delete_file", "remove_dir_all", "exists", "chown", "chmod_recursive",
    "mkdir_all"]

namespace FileService

/-- Serves some requests in turn. -/
def serveAll (service : FileService σ) (store : σ) :
    List FileRequest → List (Except LinkError FileReply) × σ
  | [] => ([], store)
  | r :: rs =>
    let (reply, store) := service.perform r store
    let (replies, store) := service.serveAll store rs
    (reply :: replies, store)

/-- Does something on a state, and takes note of a request. -/
def noting {α : Type} (r : FileRequest) (act : σ → Except LinkError α × σ)
    (s : σ × List FileRequest) : Except LinkError α × σ × List FileRequest :=
  ((act s.1).1, (act s.1).2, s.2 ++ [r])

/-- The service, keeping note of which operations it performs, and with what. -/
def noted (service : FileService σ) : FileService (σ × List FileRequest) where
  write path contents mode := noting (.write path contents mode) (service.write path contents mode)
  read path := noting (.read path) (service.read path)
  delete path := noting (.delete path) (service.delete path)
  removeAll path := noting (.removeAll path) (service.removeAll path)
  isThere path := noting (.exists path) (service.isThere path)
  chown path uid gid := noting (.chown path uid gid) (service.chown path uid gid)
  chmodAll path mode := noting (.chmodAll path mode) (service.chmodAll path mode)
  mkdirAll path mode := noting (.mkdirAll path mode) (service.mkdirAll path mode)

/-- Touches nothing, and fails each operation for one that is not supported, by its own name. -/
def absent : FileService σ where
  write _ _ _ s := (.error (.unsupported "write_file"), s)
  read _ s := (.error (.unsupported "read_file"), s)
  delete _ s := (.error (.unsupported "delete_file"), s)
  removeAll _ s := (.error (.unsupported "remove_dir_all"), s)
  isThere _ s := (.error (.unsupported "exists"), s)
  chown _ _ _ s := (.error (.unsupported "chown"), s)
  chmodAll _ _ s := (.error (.unsupported "chmod_recursive"), s)
  mkdirAll _ _ s := (.error (.unsupported "mkdir_all"), s)

end FileService

namespace Gateway

/-- What an event asks of the files. -/
def Event.request? : Event → Option FileRequest
  | .file r => some r
  | .connect _ _ | .start _ _ | .act _ _ | .push _ _ | .client _ => none

/-- What a history asks of the files, in order. -/
def requests (events : List Event) : List FileRequest := events.filterMap Event.request?

/-- A history without what it asks of the files. -/
def withoutFiles (events : List Event) : List Event := events.filter (·.request?.isNone)

/-- Two transports to which the same has happened, whatever has become of the files. -/
structure State.SameSession (s : State σ) (s' : State τ) : Prop where
  transport : s.gateway.transport = s'.gateway.transport
  results : s.results = s'.results

end Gateway

/-! ## Services -/

theorem FileRequest.operation_eq (r : FileRequest) : operations[r.ctorIdx]? = some r.operation := by
  cases r <;> rfl

/-- No two operations have the same name. -/
theorem FileRequest.ctorIdx_of_operation {r r' : FileRequest} (h : r.operation = r'.operation) :
    r.ctorIdx = r'.ctorIdx := by
  have hlt : r.ctorIdx < operations.length :=
    (List.getElem?_eq_some_iff.1 r.operation_eq).1
  have hsame : operations[r.ctorIdx]? = operations[r'.ctorIdx]? := by
    rw [operation_eq, operation_eq, h]
  exact (List.getElem?_inj hlt (by decide)).1 hsame

namespace FileService

theorem serveAll_append (service : FileService σ) (store : σ) (rs rs' : List FileRequest) :
    service.serveAll store (rs ++ rs') =
      ((service.serveAll store rs).1 ++ (service.serveAll (service.serveAll store rs).2 rs').1,
        (service.serveAll (service.serveAll store rs).2 rs').2) := by
  induction rs generalizing store with
  | nil => rfl
  | cons r rs ih => simp [serveAll, ih]

theorem perform_noted (service : FileService σ) (r : FileRequest) (s : σ × List FileRequest) :
    service.noted.perform r s = noting r (service.perform r) s := by
  cases r <;> rfl

theorem serveAll_noted (service : FileService σ) (store : σ) (asked rs : List FileRequest) :
    service.noted.serveAll (store, asked) rs =
      ((service.serveAll store rs).1, (service.serveAll store rs).2, asked ++ rs) := by
  induction rs generalizing store asked with
  | nil => simp [serveAll]
  | cons r rs ih => simp [serveAll, perform_noted, noting, ih]

theorem perform_absent (r : FileRequest) (s : σ) :
    absent.perform r s = (.error (.unsupported r.operation), s) := by
  cases r <;> rfl

theorem serveAll_absent (store : σ) (rs : List FileRequest) :
    absent.serveAll store rs = (rs.map fun r => .error (.unsupported r.operation), store) := by
  induction rs with
  | nil => rfl
  | cons r rs ih => simp [serveAll, perform_absent, ih]

end FileService

/-! ## Transports and their fallbacks -/

namespace Gateway

@[simp] theorem transport_of (t : Transport) (f : Fallback σ) : (of t f).transport = t := by
  cases t <;> rfl

@[simp] theorem fallback_of (t : Transport) (f : Fallback σ) : (of t f).fallback = f := by
  cases t <;> rfl

@[simp] theorem State.setTransport_transport (s : State σ) (t : Transport) :
    (s.setTransport t).gateway.transport = t := transport_of t _

theorem toService_eq (g : Gateway σ) : g.toService = g.fallback.toService := rfl

/-- What each operation comes to, on every transport, with a service. -/
theorem toService_ofService (t : Transport) (service : FileService σ) :
    (of t (.ofService service)).toService = service := by
  cases t <;> rfl

/-- What each operation comes to, on every transport, without a service. -/
theorem toService_nowhere (t : Transport) :
    (of t (.nowhere : Fallback σ)).toService = .absent := by
  cases t <;> rfl

end Gateway

/-! ## Histories -/

namespace Gateway

namespace State

variable {s : State σ} {s' : State τ}

/-- What is not asked of the files does not come to them. -/
theorem step_other {e : Event} (h : e.request? = none) : (s.step e).store = s.store ∧
    (s.step e).replies = s.replies ∧ (s.step e).gateway.fallback = s.gateway.fallback := by
  have hset : ∀ t, (s.setTransport t).store = s.store ∧ (s.setTransport t).replies = s.replies ∧
      (s.setTransport t).gateway.fallback = s.gateway.fallback :=
    fun t => ⟨rfl, rfl, fallback_of t _⟩
  have hkeep : ∀ task (given : Option Result × Transport), (s.keep task given).store = s.store ∧
      (s.keep task given).replies = s.replies ∧
      (s.keep task given).gateway.fallback = s.gateway.fallback := by
    rintro task ⟨_ | r, t⟩ <;> exact hset t
  cases e with
  | connect task credentials => exact hkeep task _
  | start task o => exact hkeep task _
  | act sub a => exact hset _
  | push collection v =>
    rw [step]
    split
    · exact hset _
    all_goals exact ⟨rfl, rfl, rfl⟩
  | client e =>
    rw [step]
    split
    · exact hset _
    all_goals exact ⟨rfl, rfl, rfl⟩
  | file r => cases h

theorem fallback_step (s : State σ) (e : Event) :
    (s.step e).gateway.fallback = s.gateway.fallback := by
  cases he : e.request? with
  | none => exact (step_other he).2.2
  | some r => cases e <;> first | rfl | cases he

theorem replies_step (s : State σ) (e : Event) :
    (s.step e).replies =
        s.replies ++ (s.gateway.toService.serveAll s.store (requests [e])).1 ∧
      (s.step e).store = (s.gateway.toService.serveAll s.store (requests [e])).2 := by
  cases he : e.request? with
  | none =>
    obtain ⟨hstore, hreplies, -⟩ := step_other (s := s) he
    have hnone : requests [e] = [] := by simp [requests, he]
    rw [hnone, hstore, hreplies]
    exact ⟨(List.append_nil _).symm, rfl⟩
  | some r =>
    cases e with
    | file r' => exact ⟨rfl, rfl⟩
    | connect _ _ | start _ _ | act _ _ | push _ _ | client _ => cases he

/-- **What is asked of the files is served in turn**, and the operations stay what they are. -/
theorem run_files (s : State σ) (events : List Event) :
    (s.run events).gateway.toService = s.gateway.toService ∧
      (s.run events).replies =
        s.replies ++ (s.gateway.toService.serveAll s.store (requests events)).1 ∧
      (s.run events).store = (s.gateway.toService.serveAll s.store (requests events)).2 := by
  induction events generalizing s with
  | nil => exact ⟨rfl, (List.append_nil _).symm, rfl⟩
  | cons e events ih =>
    obtain ⟨hservice, hreplies, hstore⟩ := ih (s.step e)
    obtain ⟨hreply, hkept⟩ := replies_step s e
    have hsame : (s.step e).gateway.toService = s.gateway.toService := by
      rw [toService_eq, toService_eq, fallback_step]
    have hsplit : requests (e :: events) = requests [e] ++ requests events :=
      List.filterMap_append (l := [e])
    rw [hsame, hkept] at hreplies hstore
    refine ⟨hservice.trans hsame, ?_, ?_⟩
    · show (State.run (s.step e) events).replies = _
      rw [hreplies, hreply, hsplit, FileService.serveAll_append, List.append_assoc]
    · show (State.run (s.step e) events).store = _
      rw [hstore, hsplit, FileService.serveAll_append]

/-- Nothing of the transport depends on the files. -/
theorem SameSession.step (h : s.SameSession s') (e : Event) :
    (s.step e).SameSession (s'.step e) := by
  have hset : ∀ t, (s.setTransport t).SameSession (s'.setTransport t) := fun t =>
    ⟨(s.setTransport_transport t).trans (s'.setTransport_transport t).symm, h.results⟩
  have hkeep : ∀ task (given : Option Result × Transport),
      (s.keep task given).SameSession (s'.keep task given) := by
    rintro task ⟨_ | r, t⟩
    · exact hset t
    · refine ⟨(hset t).transport, ?_⟩
      show Table.insert s.results task r = Table.insert s'.results task r
      rw [h.results]
  cases e with
  | connect task credentials =>
    rw [State.step, State.step, h.transport]
    exact hkeep task _
  | start task o =>
    rw [State.step, State.step, h.transport]
    exact hkeep task _
  | act sub a =>
    rw [State.step, State.step, h.transport]
    exact hset _
  | push collection v =>
    rw [State.step, State.step, h.transport]
    split
    · exact hset _
    all_goals exact h
  | client e =>
    rw [State.step, State.step, h.transport]
    split
    · exact hset _
    all_goals exact h
  | file r => exact ⟨h.transport, h.results⟩

/-- **Nothing of the transport depends on what is asked of the files.** -/
theorem SameSession.run (h : s.SameSession s') (events : List Event) :
    (s.run events).SameSession (s'.run (withoutFiles events)) := by
  induction events generalizing s s' with
  | nil => exact h
  | cons e events ih =>
    cases he : e.request? with
    | none =>
      have hkept : withoutFiles (e :: events) = e :: withoutFiles events := by
        simp [withoutFiles, he]
      rw [hkept]
      exact ih (h.step e)
    | some r =>
      have hleft : withoutFiles (e :: events) = withoutFiles events := by
        simp [withoutFiles, he]
      rw [hleft]
      refine ih ?_
      cases e with
      | file r' => exact ⟨h.transport, h.results⟩
      | connect _ _ | start _ _ | act _ _ | push _ _ | client _ => cases he

end State

/-- A transport leaves operations to the service that it was made with. -/
theorem fallback_ofSettings {settings : Settings} {files : Option (FileService σ)} {g : Gateway σ}
    (h : ofSettings settings files = .ok g) : g.fallback = { service? := files } := by
  unfold ofSettings at h
  cases hv : settings.validate with
  | error e =>
    rw [hv] at h
    cases h
  | ok _ =>
    rw [hv] at h
    cases hr : settings.route with
    | websocket =>
      rw [hr] at h
      cases files <;>
        · cases h
          rfl
    | unsupported =>
      rw [hr] at h
      cases h
      rfl
    | filesystem =>
      rw [hr] at h
      cases files with
      | none => cases h
      | some service =>
        cases h
        rfl

/-- **Files are left to their service.** Whatever the transport is and whatever happens to it, its
eight operations on files are those of the service that it was made with. So the service is asked
just what is asked of the files, in that order and each once, and what it gives is the answer.
Without one, every operation fails for one that is not supported, by its own name, and nothing is
touched. And the transport and what its tasks have given are the same as without any of these
requests. -/
theorem files_are_left_to_their_service (t : Transport) (events : List Event) :
    (∀ (σ : Type) (service : FileService σ) (store : σ),
      (State.run { gateway := .of t (.ofService service), store } events).gateway.toService =
        service) ∧
    (∀ (σ : Type) (service : FileService σ) (store : σ),
      let s := State.run { gateway := .of t (.ofService service.noted), store := (store, []) }
        events
      s.store.2 = requests events ∧
        (s.replies, s.store.1) = service.serveAll store (requests events)) ∧
    (∀ (σ : Type) (store : σ),
      let s := State.run { gateway := .of t .nowhere, store } events
      s.gateway.toService = .absent ∧ s.store = store ∧
        s.replies = (requests events).map fun r => .error (.unsupported r.operation)) ∧
    (∀ (σ : Type) (files : Fallback σ) (store : σ),
      let without : State Unit := { gateway := .of t .nowhere, store := () }
      (State.run { gateway := .of t files, store } events).SameSession
        (without.run (withoutFiles events))) ∧
    (∀ (σ : Type) (settings : Settings) (files : Option (FileService σ)) (g : Gateway σ),
      ofSettings settings files = .ok g → g.fallback = { service? := files }) ∧
    ∀ r r' : FileRequest, r.operation = r'.operation → r.ctorIdx = r'.ctorIdx := by
  refine ⟨fun σ service store => ?_, fun σ service store => ?_, fun σ store => ?_,
    fun σ files store => ?_, fun σ settings files g => fallback_ofSettings, fun r r' h => ?_⟩
  · obtain ⟨hservice, -, -⟩ :=
      State.run_files { gateway := .of t (.ofService service), store } events
    rwa [toService_ofService] at hservice
  · obtain ⟨-, hreplies, hstore⟩ :=
      State.run_files { gateway := .of t (.ofService service.noted), store := (store, []) } events
    rw [toService_ofService, FileService.serveAll_noted] at hreplies hstore
    exact ⟨congrArg (·.2) hstore, Prod.ext hreplies (congrArg (·.1) hstore)⟩
  · obtain ⟨hservice, hreplies, hstore⟩ :=
      State.run_files { gateway := .of t (.nowhere : Fallback σ), store } events
    rw [toService_nowhere] at hservice
    rw [toService_nowhere, FileService.serveAll_absent] at hreplies hstore
    exact ⟨hservice, hstore, hreplies⟩
  · intro without
    have hstart : State.SameSession { gateway := .of t files, store } without :=
      ⟨(transport_of t files).trans (transport_of t .nowhere).symm, rfl⟩
    exact hstart.run events
  · exact FileRequest.ctorIdx_of_operation h

/-- Finds one file, and counts what it is asked. -/
def counting : FileService Nat where
  write _ _ _ n := (.ok (), n + 1)
  read _ n := (.ok [], n + 1)
  delete _ n := (.ok (), n + 1)
  removeAll _ n := (.ok (), n + 1)
  isThere path n := (.ok (path = "/a"), n + 1)
  chown _ _ _ n := (.ok (), n + 1)
  chmodAll _ _ n := (.ok (), n + 1)
  mkdirAll _ _ n := (.ok (), n + 1)

/-- A file is asked for before the transport is connected, and one after its end. -/
def errands : List Event :=
  [.file (.exists "/a"), .connect 1 (.error .noHost), .start 2 .close, .file (.delete "/b")]

theorem errands_are_counted :
    ofSettings { route := .filesystem } (some counting) = .ok (.files (.ofService counting)) ∧
    (Gateway.files (.ofService counting)).fallback = { service? := some counting } ∧
    let s := State.run { gateway := .of .files (.ofService counting.noted), store := (0, []) }
      errands
    s.store = (2, [.exists "/a", .delete "/b"]) ∧
      s.replies = [.ok (.found true), .ok .done] := by
  obtain ⟨-, hserved, -, -, hfiles, -⟩ := files_are_left_to_their_service .files errands
  have hmade : ofSettings { route := .filesystem } (some counting) =
      .ok (.files (.ofService counting)) := rfl
  obtain ⟨hasked, hgiven⟩ := hserved Nat counting 0
  refine ⟨hmade, hfiles Nat _ _ _ hmade, Prod.ext ?_ hasked, ?_⟩
  · exact congrArg (·.2) hgiven
  · exact congrArg (·.1) hgiven

end Gateway

end ServerLink
