import PhoenixChannel.Native.Lives

/-! The worker's books when the host is idle.

`Settled` says who will take each entry of a request off the books again. Three orders of
events leave an entry that nobody takes off: a channel opened before its `Register` was
handled, an operation aborted before, and a channel that no handle will own. `Tidy` is
that none of them happens. -/
namespace PhoenixChannel.Native
open Library

namespace View

/-- A future that announced its command and has not sent it. -/
def Announced (v : View) (id : RequestId) : Prop :=
  ∃ (n : CallerId) (request : HostRequest), v.callers n = some ⟨request, .registered id⟩

structure Settled (v : View) (id : RequestId) : Prop where
  known : v.known = true → v.Announced id ∨ v.orders ≠ [] ∨ v.operation ≠ none ∨ .finished id ∈ v.mail
  register : .register id ∈ v.mail → v.Announced id ∨ v.orders ≠ [] ∨ v.operation ≠ none
  operation : ∀ t, v.operation = some t →
    (∃ task : Task, v.tasks t = some task ∧ task.aborted = false) ∨ .finished id ∈ v.mail
  cancelled : v.cancelled = true → v.orders ≠ [] ∨ .finished id ∈ v.mail

variable {v v' : View} {id : RequestId}

theorem Blank.settled (h : v.Blank) : v.Settled id := by
  obtain ⟨_, h2, _, h4, h5, h6, _⟩ := h
  exact ⟨fun hk => by simp [h4] at hk, fun hm => by simp [h2] at hm, fun t ho => by simp [h6] at ho,
    fun hc => by simp [h5] at hc⟩

theorem Booked.not_announced (h : ¬ v.Unsent id) : ¬ v.Announced id :=
  fun ⟨n, request, hc⟩ => h ⟨n, request, .inr hc⟩

/-- The end of a waiting future is not the end of an announced one. -/
theorem Announced.update {n : CallerId} {request : HostRequest} (h : v.Announced id)
    (hc : v.callers n = some ⟨request, .waiting id⟩) :
    ∃ (m : CallerId) (request' : HostRequest),
      Function.update v.callers n none m = some ⟨request', .registered id⟩ := by
  obtain ⟨m, request', hm⟩ := h
  refine ⟨m, request', ?_⟩
  rw [Function.update_of_ne ?_, hm]
  intro he
  subst he
  simp [hc] at hm

/-- Mail loses its head: what else was in it still is. -/
theorem mem_of_cons {m m' : ControlCommand} {mail rest : List ControlCommand} (hm : m ∈ mail)
    (hq : mail = m' :: rest) (hne : m ≠ m') : m ∈ rest := by
  subst hq
  exact (List.mem_cons.mp hm).resolve_left hne

/-- **Every step of a life settles what it leaves**, when a channel is opened only after its
`Register` and an operation is aborted only after its own. -/
theorem Settled.life (h : v.Settled id) (hb : v.Booked id) (hl : Life id v v')
    (hopen : ∀ topic response rest, v.orders = .channel id topic response :: rest → v'.orders = rest →
      v.known = true)
    (habort : ∀ t task rest, v.mail = .cancel id :: rest → v'.mail = rest → v.operation = some t →
      v.tasks t = some task → task.aborted = false → v.known = false) : v'.Settled id := by
  cases hl with
  | issue hblank =>
    obtain ⟨_, h2, _, h4, h5, h6, _⟩ := hblank
    exact ⟨fun hk => by simp [h4] at hk, fun hm => by simp [h2] at hm, fun t ho => by simp [h6] at ho,
      fun hc => by simp [h5] at hc⟩
  | register hc =>
    rename_i n request
    obtain ⟨_, _, hknown, hcancelled, hop, _⟩ := hb.issued _ _ hc
    exact ⟨fun hk => by simp [hknown] at hk, fun _ => .inl ⟨n, request, Function.update_self ..⟩,
      fun t ho => by simp [hop] at ho, fun hc => by simp [hcancelled] at hc⟩
  | submit hc =>
    have hne : ∀ {c : HostCommand}, v.orders ++ [c] ≠ [] := by simp
    exact ⟨fun _ => .inr (.inl hne), fun _ => .inr (.inl hne), h.operation, fun _ => .inl hne⟩
  | answered hc =>
    exact ⟨fun hk => (h.known hk).imp_left (·.update hc), fun hm => (h.register hm).imp_left (·.update hc),
      h.operation, h.cancelled⟩
  | abandoned hc =>
    refine ⟨fun hk => ?_, fun hm => (h.register (by simpa using hm)).imp_left (·.update hc), fun t ho => ?_,
      fun hk => ?_⟩
    · exact (h.known hk).imp (·.update hc) (Or.imp_right (Or.imp_right (List.mem_append_left _)))
    · exact (h.operation t ho).imp_right (List.mem_append_left _)
    · exact (h.cancelled hk).imp_right (List.mem_append_left _)
  | registered hq =>
    refine ⟨fun _ => ?_, fun hm => absurd hm (not_mem_of_tail hb.first hq), fun t ho => ?_, fun hk => ?_⟩
    · exact (h.register (by simp [hq])).imp_right (Or.imp_right .inl)
    · exact (h.operation t ho).imp_right (mem_of_cons · hq (by simp))
    · exact (h.cancelled hk).imp_right (mem_of_cons · hq (by simp))
  | aborted hq ho =>
    refine ⟨fun hk => ?_, fun hm => absurd hm (not_mem_of_tail hb.first hq), nofun, fun hk => ?_⟩
    · obtain ⟨task, ht, ha⟩ | hfin := h.operation _ ho
      · simp [habort _ _ _ hq rfl ho ht ha] at hk
      · exact .inr (.inr (.inr (mem_of_cons hfin hq (by simp))))
    · exact (h.cancelled hk).imp_right (mem_of_cons · hq (by simp))
  | cancelled hq ho hk =>
    have hsent := hb.sent_of_mail (m := .cancel id) (by simp [hq]) (by simp)
    have howed : v.orders ≠ [] ∨ .finished id ∈ v.mail := by
      obtain hannounced | horders | hop | hfin := h.known hk
      · exact absurd hannounced (Booked.not_announced hsent)
      · exact .inl horders
      · exact absurd ho hop
      · exact .inr hfin
    refine ⟨fun _ => ?_, fun hm => absurd hm (not_mem_of_tail hb.first hq), fun t ht => ?_, fun _ => ?_⟩
    · exact .inr (howed.imp_right fun hm => .inr (mem_of_cons hm hq (by simp)))
    · simp [ho] at ht
    · exact howed.imp_right (mem_of_cons · hq (by simp))
  | unheard hq ho hk =>
    refine ⟨fun hk' => by simp [hk] at hk', fun hm => absurd hm (not_mem_of_tail hb.first hq), fun t ht => ?_,
      fun hc => (h.cancelled hc).imp_right (mem_of_cons · hq (by simp))⟩
    simp [ho] at ht
  | finished hq => exact ⟨nofun, fun hm => absurd hm (not_mem_of_tail hb.first hq), nofun, nofun⟩
  | skipped hq hc =>
    obtain ⟨_, _, _, hop, _⟩ := hb.ordered _ _ hq
    exact ⟨nofun, fun hm => absurd hm (hb.heard (.inr hc)), fun t ht => by simp [hop] at ht, nofun⟩
  | tracked hq hc =>
    refine ⟨nofun, fun _ => .inr (.inr nofun), fun t ht => ?_, nofun⟩
    cases ht
    exact .inl ⟨_, Function.update_self .., rfl⟩
  | opened hq hc =>
    obtain ⟨_, _, _, hop, _⟩ := hb.ordered _ _ hq
    exact ⟨nofun, fun hm => absurd hm (hb.heard (.inl (hopen _ _ _ hq rfl))), fun t ht => by simp [hop] at ht, nofun⟩
  | responded => exact h
  | completed ht ha =>
    have hfin : ∀ {mail : List ControlCommand}, .finished id ∈ mail ++ [.finished id] := by simp
    exact ⟨fun _ => .inr (.inr (.inr hfin)), fun hm => h.register (by simpa using hm), fun _ _ => .inr hfin,
      fun _ => .inr hfin⟩
  | reaped ht ha =>
    refine ⟨h.known, h.register, fun t' ho => (h.operation t' ho).imp_left ?_, h.cancelled⟩
    rintro ⟨task, htask, hlive⟩
    refine ⟨task, (Function.update_of_ne ?_ ..).trans htask, hlive⟩
    intro he
    subst he
    cases ht.symm.trans htask
    simp [ha] at hlive

end View
namespace State
variable {s s' : State} {input : Input}

/-- The steps that leave the books in order. -/
structure Tidy (s : State) (input : Input) : Prop where
  fresh : s.FreshIds input
  /-- A `Channel` command is taken after its `Register`. -/
  registered : ∀ opening, input = .command opening → ∀ id topic response rest,
    s.commands = .channel id topic response :: rest → id ∈ s.knownRequests
  /-- A running operation is aborted after its `Register`. -/
  aborted : input = .control → ∀ (id : RequestId) (rest : List ControlCommand) (t : TaskId) (task : Task),
    s.control = .cancel id :: rest → s.operations[id]? = some t → s.tasks[t]? = some task → task.aborted = false →
    id ∉ s.knownRequests
  /-- A channel is opened while its future still waits for it. -/
  awaited : input = .command .opened → ∀ id topic response rest,
    s.commands = .channel id topic response :: rest → id ∉ s.cancelled → s.topicTaken topic = false →
    s.listens response = true
  /-- A future is not dropped when its channel is there. -/
  received : ∀ caller, input = .drop caller → ∀ channel, s.responses[caller]? ≠ some (.registration channel)

/-- Every open channel has a handle, or will have one, or is about to be removed. -/
structure Owned (s : State) : Prop where
  answering : ∀ n : CallerId, s.responses[n]? ≠ none → s.callers[n]? ≠ none
  owned : ∀ c : ChannelId, s.channels[c]? ≠ none →
    (∃ n : CallerId, s.responses[n]? = some (.registration c)) ∨ c ∈ s.handles ∨ .removeChannel c ∈ s.control

theorem owned_start (capacity : Nat) : (start capacity).Owned := by
  constructor <;> simp [start]

theorem listens_iff {n : CallerId} : s.listens n = true ↔ s.callers[n]? ≠ none ∧ s.responses[n]? = none := by
  simp only [listens, Bool.and_eq_true, Bool.not_eq_true']
  grind

/-- A caller and its response go together. -/
theorem answering_erase (h : ∀ n : CallerId, s.responses[n]? ≠ none → s.callers[n]? ≠ none) (caller n : CallerId)
    (hn : (s.responses.erase caller)[n]? ≠ none) : (s.callers.erase caller)[n]? ≠ none := by
  rw [Table.lookup_erase] at hn ⊢
  split at hn
  · exact absurd rfl hn
  · rename_i hne
    rw [if_neg hne]
    exact h n hn

/-- A caller that is entered takes nobody's response away. -/
theorem answering_insert (h : ∀ n : CallerId, s.responses[n]? ≠ none → s.callers[n]? ≠ none) (caller : CallerId)
    (c : Caller) (n : CallerId) (hn : s.responses[n]? ≠ none) : (s.callers.insert caller c)[n]? ≠ none := by
  rw [Table.lookup_insert]
  split
  · nofun
  · exact h n hn

/-- A registration outlives the end of a future that had another response. -/
theorem registration_erase {caller : CallerId} {c : ChannelId}
    (hr : ∀ channel, s.responses[caller]? ≠ some (.registration channel))
    (h : ∃ n : CallerId, s.responses[n]? = some (.registration c)) :
    ∃ n : CallerId, (s.responses.erase caller)[n]? = some (.registration c) := by
  obtain ⟨n, hn⟩ := h
  refine ⟨n, ?_⟩
  rw [Table.lookup_erase, if_neg ?_, hn]
  intro he
  exact hr c (he ▸ hn)

/-- What a response does to the responses there are. -/
theorem answer_keeps {caller : CallerId} {response : Response} {responses : Table CallerId Response}
    (hr : responses = if s.listens caller then s.responses.insert caller response else s.responses)
    (h : ∀ n : CallerId, s.responses[n]? ≠ none → s.callers[n]? ≠ none) :
    (∀ n : CallerId, responses[n]? ≠ none → s.callers[n]? ≠ none) ∧
      ∀ c, (∃ n : CallerId, s.responses[n]? = some (.registration c)) →
        ∃ n : CallerId, responses[n]? = some (.registration c) := by
  by_cases hl : s.listens caller = true
  · obtain ⟨hcaller, hnone⟩ := listens_iff.mp hl
    rw [if_pos hl] at hr
    subst hr
    refine ⟨fun n hn => ?_, fun c ⟨n, hn⟩ => ⟨n, ?_⟩⟩
    · rw [Table.lookup_insert] at hn
      split at hn
      · rename_i he
        exact he ▸ hcaller
      · exact h n hn
    · rw [Table.lookup_insert, if_neg ?_, hn]
      intro he
      cases (he ▸ hnone).symm.trans hn
  · rw [if_neg hl] at hr
    subst hr
    exact ⟨h, fun _ => id⟩

/-- **A tidy step leaves no channel without an owner.** -/
theorem Owned.move (h : s.Owned) (hm : s.Move input s') (ht : s.Tidy input) : s'.Owned := by
  have hpush : ∀ {m : ControlCommand} {c : ChannelId}, s.channels[c]? ≠ none →
      (∃ n : CallerId, s.responses[n]? = some (.registration c)) ∨ c ∈ s.handles ∨
        .removeChannel c ∈ s.control ++ [m] :=
    fun hc => (h.owned _ hc).imp_right (Or.imp_right (List.mem_append_left _))
  have hpop : ∀ {m : ControlCommand} {rest : List ControlCommand} {c : ChannelId}, s.control = m :: rest →
      m ≠ .removeChannel c → s.channels[c]? ≠ none →
      (∃ n : CallerId, s.responses[n]? = some (.registration c)) ∨ c ∈ s.handles ∨ .removeChannel c ∈ rest :=
    fun hq hne hc => (h.owned _ hc).imp_right (Or.imp_right fun hm => View.mem_of_cons hm hq hne.symm)
  cases hm with
  | reserve => exact ⟨answering_insert h.answering _ _, h.owned⟩
  | issue hc | submit hc => exact ⟨answering_insert h.answering _ _, h.owned⟩
  | register hc => exact ⟨answering_insert h.answering _ _, fun c => hpush⟩
  | receiveOk hc hr =>
    exact ⟨answering_erase h.answering _, fun c hchannel =>
      (h.owned c hchannel).imp_left (registration_erase (by simp [hr]))⟩
  | receiveError hc hr =>
    exact ⟨answering_erase h.answering _,
      fun c hchannel => (hpush hchannel).imp_left (registration_erase (by simp [hr]))⟩
  | receiveRegistration hc hr =>
    rename_i caller request id channel
    refine ⟨answering_erase h.answering _, fun c hchannel => ?_⟩
    by_cases he : c = channel
    · subst he
      exact .inr (.inl List.mem_cons_self)
    · obtain ⟨n, hn⟩ | hhandle | hremove := h.owned c hchannel
      · refine .inl ⟨n, ?_⟩
        rw [Table.lookup_erase, if_neg ?_, hn]
        intro hcaller
        subst hcaller
        cases hr.symm.trans hn
        exact he rfl
      · exact .inr (.inl (List.mem_cons_of_mem _ hhandle))
      · exact .inr (.inr hremove)
  | drop hc =>
    exact ⟨answering_erase h.answering _, fun c hchannel =>
      (hpush hchannel).imp_left (registration_erase (ht.received _ rfl))⟩
  | dropHandle hh =>
    rename_i channel
    refine ⟨h.answering, fun c hchannel => ?_⟩
    by_cases he : c = channel
    · subst he
      exact .inr (.inr (List.mem_append_right _ List.mem_cons_self))
    · exact (hpush hchannel).imp_right (Or.imp_left (List.mem_erase_of_ne he).mpr)
  | submitShutdown => exact ⟨h.answering, h.owned⟩
  | dropOwner hc hh => exact ⟨h.answering, fun c => hpush⟩
  | registered hq hf | cancelKnown hq hf ho hk | cancelUnknown hq hf ho hk | cancelTracked hq hf ho =>
    exact ⟨h.answering, fun c => hpop hq (by simp)⟩
  | finished hq hf => exact ⟨h.answering, fun c => hpop hq (by simp)⟩
  | removeChannel hq hf =>
    rename_i channel rest
    refine ⟨h.answering, fun c hchannel => ?_⟩
    rw [Table.lookup_erase] at hchannel
    split at hchannel
    · exact absurd rfl hchannel
    · rename_i hne
      exact hpop hq (by simpa using fun he => hne he.symm) hchannel
  | skip hq hf hid hc => exact ⟨h.answering, h.owned⟩
  | track hq hf hc => exact ⟨h.answering, h.owned⟩
  | refuse hq hf hc hr =>
    obtain ⟨hanswering, hkept⟩ := answer_keeps hr h.answering
    exact ⟨hanswering, fun c hchannel => (h.owned c hchannel).imp_left (hkept c)⟩
  | openChannel hq hf hc htaken hr =>
    rename_i id topic response rest responses
    obtain ⟨hanswering, hkept⟩ := answer_keeps hr h.answering
    refine ⟨hanswering, fun c hchannel => ?_⟩
    by_cases he : c = s.nextId
    · subst he
      rw [if_pos (ht.awaited rfl _ _ _ _ hq hc htaken)] at hr
      exact .inl ⟨response, by rw [hr, Table.lookup_insert, if_pos rfl]⟩
    · rw [Table.lookup_insert, if_neg he] at hchannel
      exact (h.owned c hchannel).imp_left (hkept c)
  | stop hi hl => exact ⟨h.answering, fun c hchannel => absurd (by simp) hchannel⟩
  | respond hf htask ha hr =>
    obtain ⟨hanswering, hkept⟩ := answer_keeps hr h.answering
    exact ⟨hanswering, fun c hchannel => (h.owned c hchannel).imp_left (hkept c)⟩
  | finish hf ht => exact ⟨h.answering, fun c => hpush⟩
  | reap hf ht ha => exact ⟨h.answering, h.owned⟩

/-- A command leaves the queue only when the worker takes one. -/
theorem orders_of_move (hm : s.Move input s') (hrun : s'.running = true) (id : RequestId) :
    (∃ opening, input = .command opening) ∨ (s.view id).orders.length ≤ (s'.view id).orders.length := by
  cases hm with
  | skip | track | refuse | openChannel => exact .inl ⟨_, rfl⟩
  | stop hi hl => cases hrun
  | submit hc => exact .inr (by simp [view])
  | submitShutdown => exact .inr (by simp [view])
  | _ => exact .inr (Nat.le_refl _)

/-- A control command leaves the queue only when the worker takes one. -/
theorem mail_of_move (hm : s.Move input s') (hrun : s'.running = true) (id : RequestId) :
    input = .control ∨ (s.view id).mail.length ≤ (s'.view id).mail.length := by
  cases hm with
  | registered | cancelTracked | cancelKnown | cancelUnknown | finished | removeChannel => exact .inl rfl
  | stop hi hl => cases hrun
  | register | receiveError | drop | dropHandle | dropOwner | finish => exact .inr (by simp [view])
  | _ => exact .inr (Nat.le_refl _)

/-- The books of every request and every channel will be closed. -/
structure Closing (s : State) : Prop where
  kept : s.Kept
  settled : s.running = true → ∀ id, (s.view id).Settled id
  owned : s.Owned

theorem closing_start (capacity : Nat) : (start capacity).Closing :=
  ⟨kept_start capacity, fun _ id => (start_blank capacity id).settled, owned_start capacity⟩

/-- One case for each move. What a host that is gone leaves in the books, an order on its way will take
out. -/
theorem Closing.move (h : s.Closing) (hrun : s.running = true) (hm : s.Move input s') (ht : s.Tidy input) :
    s'.Closing := by
  refine ⟨h.kept.move hrun hm ht.fresh, fun hrun' id => ?_, h.owned.move hm ht⟩
  by_cases hid : s.subject input = some id
  · have hl := life_of_move h.kept.sound hm ht.fresh hrun' hid
    refine (h.settled hrun id).life (h.kept.booked hrun id) hl (fun topic response rest hv hv' => ?_)
      fun t task rest hv hv' ho htask ha => ?_
    · obtain ⟨opening, rfl⟩ | hle := orders_of_move hm hrun' id
      · obtain ⟨c, hc, hr⟩ := Option.bind_eq_some_iff.mp hid
        obtain ⟨later, hq⟩ := List.head?_eq_some_iff.mp hc
        cases (List.cons.inj ((view_orders hq hr).symm.trans hv)).1
        exact Std.ExtTreeSet.contains_iff_mem.mpr (ht.registered opening rfl id topic response later hq)
      · rw [hv, hv', List.length_cons] at hle
        omega
    · obtain rfl | hle := mail_of_move hm hrun' id
      · obtain ⟨m, hm, hr⟩ := Option.bind_eq_some_iff.mp hid
        obtain ⟨later, hq⟩ := List.head?_eq_some_iff.mp hm
        cases (List.cons.inj ((view_mail hq hr).symm.trans hv)).1
        have htask' := (Option.filter_eq_some_iff.mp htask).1
        exact Bool.eq_false_iff.mpr fun hk =>
          ht.aborted rfl id later t task hq ho htask' ha (Std.ExtTreeSet.contains_iff_mem.mp hk)
      · rw [hv, hv', List.length_cons] at hle
        omega
  · rw [view_of_other h.kept.sound hm hrun' hid]
    exact h.settled hrun id

/-- Every request future is over, every handle is dropped, the queues are drained and no
task is left. -/
structure HostIdle (s : State) : Prop where
  callers : s.callers = ∅
  handles : s.handles = []
  control : s.control = []
  commands : s.commands = []
  tasks : s.tasks = ∅

/-- The books are empty, and every topic can be registered. -/
structure BooksEmpty (s : State) : Prop where
  knownRequests : s.knownRequests = ∅
  cancelled : s.cancelled = ∅
  operations : s.operations = ∅
  channels : s.channels = ∅
  topics : ∀ topic, s.topicTaken topic = false

/-- When every host future is done and both queues are empty there is no order left, and so nothing in the
books. -/
theorem Closing.empty (h : s.Closing) (hrun : s.running = true) (hi : s.HostIdle) : s.BooksEmpty := by
  have hannounced : ∀ id, ¬ (s.view id).Announced id := by
    rintro id ⟨n, request, hc⟩
    simp [view, hi.callers] at hc
  have hmail : ∀ id, (s.view id).mail = [] := fun id => by simp [view, hi.control]
  have horders : ∀ id, (s.view id).orders = [] := fun id => by simp [view, hi.commands]
  have hops : ∀ id : RequestId, s.operations[id]? = none := by
    intro id
    by_contra hne
    obtain ⟨t, ht⟩ := Option.ne_none_iff_exists'.mp hne
    obtain ⟨task, htask, _⟩ | hfin := (h.settled hrun id).operation t ht
    · simp [view, hi.tasks] at htask
    · simp [hmail] at hfin
  have hchannels : s.channels = ∅ := by
    apply Std.ExtTreeMap.ext_getElem?
    intro c
    by_contra hne
    obtain ⟨n, hn⟩ | hhandle | hremove := h.owned.owned c (by simpa using hne)
    · have hcaller := h.owned.answering n (by simp [hn])
      simp [hi.callers] at hcaller
    · simp [hi.handles] at hhandle
    · simp [hi.control] at hremove
  refine ⟨Std.ExtTreeSet.ext_mem fun id => ?_, Std.ExtTreeSet.ext_mem fun id => ?_,
    Std.ExtTreeMap.ext_getElem? fun id => ?_, hchannels, fun topic => ?_⟩
  · refine iff_of_false (fun hk => ?_) (by simp)
    obtain hann | hord | hop | hfin := (h.settled hrun id).known (Std.ExtTreeSet.contains_iff_mem.mpr hk)
    · exact hannounced id hann
    · exact hord (horders id)
    · exact hop (hops id)
    · simp [hmail] at hfin
  · refine iff_of_false (fun hc => ?_) (by simp)
    obtain hord | hfin := (h.settled hrun id).cancelled (Std.ExtTreeSet.contains_iff_mem.mpr hc)
    · exact hord (horders id)
    · simp [hmail] at hfin
  · simp [hops]
  · simp [topicTaken, hchannels, hi.tasks]

/-- The end of the worker empties the books. -/
theorem empty_of_stop (hm : s.Move input s') (hrun : s.running = true) (hstop : s'.running = false) :
    s'.BooksEmpty := by
  cases hm with
  | stop hi hl => exact ⟨rfl, rfl, rfl, rfl, fun topic => by simp [topicTaken]⟩
  | _ => cases hrun.symm.trans hstop

/-- **The worker's books are empty when the host is idle**, in every run of tidy steps. -/
theorem books_empty {capacity : Nat} {s : State} (h : (machine capacity).Reach Tidy s) (hi : s.HostIdle) :
    s.BooksEmpty := by
  have hstate : s.Closing ∧ (s.running = false → s.BooksEmpty) := by
    refine h.invariant (P := fun s => s.Closing ∧ (s.running = false → s.BooksEmpty))
      ⟨closing_start capacity, nofun⟩ ?_
    intro s input s' _ ⟨hc, _⟩ ht hs
    have hm := move_of_step hs
    have hrun := running_of_step hs
    exact ⟨hc.move hrun hm ht, empty_of_stop hm hrun⟩
  by_cases hrun : s.running = true
  · exact hstate.1.empty hrun hi
  · exact hstate.2 (by simpa using hrun)

/-- A check that a step is tidy: an id is issued when nothing is under way, a command is taken
when its `Register` was, and nothing is cancelled or dropped. -/
def plain (s : State) : Input → Bool
  | .issue _ =>
    s.callers.toList.all (fun entry => entry.2.phase == .reserved) && s.control.isEmpty && s.commands.isEmpty &&
      s.knownRequests.isEmpty && s.cancelled.isEmpty && s.operations.isEmpty && s.tasks.isEmpty
  | .command _ => s.commands.all fun c =>
    match c with
    | .channel id _ response => s.knownRequests.contains id && s.listens response
    | .operation _ _ _ | .shutdown => true
  | .control => s.control.all fun m =>
    match m with
    | .cancel _ => false
    | .register _ | .finished _ | .removeChannel _ | .shutdown => true
  | .drop _ => false
  | _ => true

/-- The test that a run can be checked with is sound. -/
theorem tidy_of_plain (h : s.plain input = true) : s.Tidy input where
  fresh := by
    rintro caller rfl
    simp only [plain, Bool.and_eq_true, List.isEmpty_iff] at h
    obtain ⟨⟨⟨⟨⟨⟨hcallers, hcontrol⟩, hcommands⟩, hknown⟩, hcancelled⟩, hoperations⟩, htasks⟩ := h
    refine ⟨fun n => ?_, by simp [view, hcontrol], by simp [view, hcommands], ?_, ?_, ?_, fun t => ?_⟩
    · rw [view, Option.filter_eq_none_iff]
      intro c hc
      have hmem := List.all_eq_true.mp hcallers (n, c) (Std.ExtTreeMap.mem_toList_iff_getElem?_eq_some.mpr hc)
      simp [show c.phase = .reserved by simpa using hmem, Phase.id?]
    · simp [view, Std.ExtTreeSet.isEmpty_iff.mp hknown]
    · simp [view, Std.ExtTreeSet.isEmpty_iff.mp hcancelled]
    · simp [view, Std.ExtTreeMap.isEmpty_iff.mp hoperations]
    · simp [view, Std.ExtTreeMap.isEmpty_iff.mp htasks]
  registered := by
    rintro opening rfl id topic response rest hq
    simp only [plain, hq, List.all_cons, Bool.and_eq_true] at h
    exact Std.ExtTreeSet.contains_iff_mem.mp h.1.1
  aborted := by
    rintro rfl id rest t task hq
    simp [plain, hq] at h
  awaited := by
    rintro rfl id topic response rest hq _ _
    simp only [plain, hq, List.all_cons, Bool.and_eq_true] at h
    exact h.1.2
  received := by
    rintro caller rfl
    simp [plain] at h

/-- A channel is opened, called and dropped. -/
theorem books_empty_called : ∃ s : State, s.log.length = 8 ∧ s.BooksEmpty := by
  obtain ⟨s, hr, hs⟩ := (machine 64).reach_of_guarded_run
    (show ∀ s i, plain s i = true → Tidy s i from fun _ _ => tidy_of_plain)
    [.reserve (.channel "room"), .issue 0, .register 0, .submit 0, .control, .command .opened, .receive 0,
      .reserve (.operation (.call 1 "ping" (.binary []) none)), .issue 1, .register 1, .submit 1, .control,
      .command .opened, .respond 0 true, .finish, .control, .receive 1, .dropHandle 1, .control]
    (fun s => s.log.length = 8 ∧ s.callers.isEmpty ∧ s.handles = [] ∧ s.control = [] ∧ s.commands.isEmpty ∧
      s.tasks.isEmpty) (by decide +kernel)
  obtain ⟨hlog, hcallers, hhandles, hcontrol, hcommands, htasks⟩ := of_decide_eq_true hs
  exact ⟨s, hlog, books_empty hr ⟨Std.ExtTreeMap.isEmpty_iff.mp hcallers, hhandles, hcontrol,
    List.isEmpty_iff.mp hcommands, Std.ExtTreeMap.isEmpty_iff.mp htasks⟩⟩

/-- The future of a `channel` call is dropped after the worker opened the channel: nobody
removes it, and its topic cannot be registered again. -/
theorem dropped_channel_left :
    ¬ ∀ (capacity : Nat) (s : State), (machine capacity).Reachable s → s.HostIdle → s.BooksEmpty := by
  intro hall
  obtain ⟨s, hr, hs⟩ := (machine 64).reachable_of_run
    [.reserve (.channel "room"), .issue 0, .register 0, .submit 0, .control, .command .opened, .drop 0, .control]
    (fun s => s.topicTaken "room" ∧ s.callers.isEmpty ∧ s.handles = [] ∧ s.control = [] ∧ s.commands.isEmpty ∧
      s.tasks.isEmpty) (by decide +kernel)
  obtain ⟨htaken, hcallers, hhandles, hcontrol, hcommands, htasks⟩ := of_decide_eq_true hs
  have hempty := hall 64 s hr ⟨Std.ExtTreeMap.isEmpty_iff.mp hcallers, hhandles, hcontrol,
    List.isEmpty_iff.mp hcommands, Std.ExtTreeMap.isEmpty_iff.mp htasks⟩
  rw [hempty.topics] at htaken
  cases htaken

end State
end PhoenixChannel.Native
