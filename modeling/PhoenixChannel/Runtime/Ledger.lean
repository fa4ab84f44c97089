import PhoenixChannel.Library.Machine
import PhoenixChannel.Runtime.Operations

/-! Requests and their outcomes.

The ledger runs the protocol under any order of its operations and writes down which
references were returned and how each of them stopped being pending. Its invariant is a
balance: a reference is pending once, or settled once, for every time it was returned. -/
namespace PhoenixChannel.Runtime
open Library

/-- The reference of the request an event reports on. -/
def ProtocolEvent.subject : ProtocolEvent → Option Reference
  | .joined _ reference _ | .joinError _ reference _ | .left _ reference _
  | .reply _ _ reference _ _ | .heartbeatAck reference _ | .requestInterrupted _ _ reference =>
    some reference
  | .message _ | .channelClosed _ _ | .channelError _ _ | .staleMessage _ | .unmatchedReply _ =>
    none

/-- One call of an operation of the protocol. -/
inductive Op where
  | join (topic : Topic) (params : Value)
  | rejoin (topic : Topic) (refreshedParams : Value)
  | rejoinAllWithStoredParams (order : List Topic)
  | leave (topic : Topic)
  | push (topic : Topic) (event : String) (payload : Payload)
  | heartbeat
  | forgetPush (reference : Reference)
  | forgetHeartbeat (reference : Reference)
  | discardChannel (topic : Topic)
  | resetConnection
  | receive (frame : Frame)

/-- What a call returns. -/
structure Outcome where
  sent : List Outbound := []
  events : List ProtocolEvent := []
  error : Option ProtocolError := none
  accepted : Bool := false

def Outcome.references (outcome : Outcome) : List Reference :=
  outcome.sent.map Outbound.reference

/-- How a returned reference stopped being pending. -/
inductive Fate where
  /-- A receive gave its event, or failed on its reply. -/
  | consumed
  /-- A reset reported it as interrupted. -/
  | interrupted
  /-- A reset dropped it without a report. -/
  | dropped
  /-- It was forgotten, or its topic was discarded or joined again. -/
  | withdrawn
  deriving DecidableEq, Repr

namespace Protocol

def returning : Except ProtocolError Outbound → Outcome
  | .ok outbound => { sent := [outbound] }
  | .error e => { error := some e }

@[simp] theorem returning_events (result : Except ProtocolError Outbound) :
    (returning result).events = [] := by
  cases result <;> rfl

def reporting : Except ProtocolError ProtocolEvent → Outcome
  | .ok event => { events := [event] }
  | .error e => { error := some e }

def perform (p : Protocol) : Op → Outcome × Protocol
  | .join topic params => (returning (p.join topic params).1, (p.join topic params).2)
  | .rejoin topic params => (returning (p.rejoin topic params).1, (p.rejoin topic params).2)
  | .rejoinAllWithStoredParams order =>
    ({ sent := (p.rejoinAllWithStoredParams order).1 }, (p.rejoinAllWithStoredParams order).2)
  | .leave topic => (returning (p.leave topic).1, (p.leave topic).2)
  | .push topic event payload => (returning (p.push topic event payload).1, (p.push topic event payload).2)
  | .heartbeat => ({ sent := [p.heartbeat.1] }, p.heartbeat.2)
  | .forgetPush reference =>
    ({ accepted := (p.forgetPush reference).1 }, (p.forgetPush reference).2)
  | .forgetHeartbeat reference =>
    ({ accepted := (p.forgetHeartbeat reference).1 }, (p.forgetHeartbeat reference).2)
  | .discardChannel topic =>
    ({ accepted := (p.discardChannel topic).1 }, (p.discardChannel topic).2)
  | .resetConnection => ({ events := p.resetConnection.1 }, p.resetConnection.2)
  | .receive frame => (reporting (p.receive frame).1, (p.receive frame).2)

/-- The pending requests of a topic. -/
def ofTopic (p : Protocol) (topic : Topic) : List Reference :=
  p.pending.keysWhere fun _ pending => pending.topic? == some topic

/-- The requests a rejoin of a topic withdraws: those of a topic that is known and inactive. -/
def replaced (p : Protocol) (topic : Topic) : List Reference :=
  if (p.channelState topic).any fun state => !state.active then p.ofTopic topic else []

def replacedEach : Protocol → List (Topic × Value) → List Reference
  | _, [] => []
  | p, (topic, params) :: rest => p.replaced topic ++ replacedEach (p.rejoin topic params).2 rest

/-- The pending heartbeats. -/
def heartbeats (p : Protocol) : List Reference :=
  p.pending.keysWhere fun _ pending => pending == .heartbeat

/-- The request a received frame completes. A malformed reply completes it as well. -/
def consumed (frame : Frame) : Except ProtocolError ProtocolEvent → List Reference
  | .ok event => event.subject.toList
  | .error _ => frame.reference.toList

/-- The references a call settles, each with its fate. -/
def fates (p : Protocol) : Op → List (Reference × Fate)
  | .join _ _ | .leave _ | .push _ _ _ | .heartbeat => []
  | .rejoin topic _ => (p.replaced topic).map (·, .withdrawn)
  | .rejoinAllWithStoredParams order => (p.replacedEach (p.inactive order)).map (·, .withdrawn)
  | .forgetPush reference => if (p.forgetPush reference).1 then [(reference, .withdrawn)] else []
  | .forgetHeartbeat reference =>
    if (p.forgetHeartbeat reference).1 then [(reference, .withdrawn)] else []
  | .discardChannel topic => (p.ofTopic topic).map (·, .withdrawn)
  | .resetConnection =>
    (p.resetConnection.1.filterMap ProtocolEvent.subject).map (·, .interrupted) ++
      p.heartbeats.map (·, .dropped)
  | .receive frame => (consumed frame (p.receive frame).1).map (·, .consumed)

/-! ### The balance of one operation

What is pending before, and what is inserted, is pending afterwards or accounted for. -/

/-- One for a pending reference. -/
def held (p : Protocol) (r : Reference) : Nat := if r ∈ p.pending then 1 else 0

/-- From `p` to `p'` the references `new` were returned and `gone` were settled. -/
structure Clean (p p' : Protocol) (new gone : List Reference) : Prop where
  numbered : p'.Numbered
  grows : p.allocated ≤ p'.allocated
  nodup : new.Nodup
  fresh : ∀ r ∈ new, ¬ p.Issued r ∧ p'.Issued r
  balance : ∀ r, p'.held r + gone.count r = p.held r + new.count r

variable {p p' p'' : Protocol} {new new' gone gone' : List Reference}

theorem Clean.refl (h : p.Numbered) : Clean p p [] [] :=
  ⟨h, Nat.le_refl _, List.nodup_nil, by simp, by simp⟩

/-- What two calls return and settle, they return and settle together. -/
theorem Clean.trans (h : Clean p p' new gone) (h' : Clean p' p'' new' gone') :
    Clean p p'' (new ++ new') (gone ++ gone') := by
  refine ⟨h'.numbered, Nat.le_trans h.grows h'.grows, ?_, ?_, ?_⟩
  · refine List.Nodup.append h.nodup h'.nodup fun r hr hr' => ?_
    exact (h'.fresh r hr').1 (h.fresh r hr).2
  · intro r hr
    rcases List.mem_append.mp hr with hr | hr
    · exact ⟨(h.fresh r hr).1, (h.fresh r hr).2.mono h'.grows⟩
    · exact ⟨fun hi => (h'.fresh r hr).1 (hi.mono h.grows), (h'.fresh r hr).2⟩
  · intro r
    have h1 := h.balance r
    have h2 := h'.balance r
    simp only [List.count_append]
    omega

/-- `p'` has allocated one more reference than `p`, and `pending` under it. -/
structure Inserted (p p' : Protocol) (pending : Pending) : Prop where
  nextReference : p'.nextReference = advance p.nextReference
  allocated : p'.allocated = p.allocated + 1
  pending : p'.pending = p.pending.insert p.nextText pending

/-- A request under a reference that was just handed out: returned once, pending once. -/
theorem Clean.insert {pending : Pending} (h : p.Numbered) (hi : Inserted p p' pending)
    (hb : p'.allocated < 2 ^ 64) : Clean p p' [p.nextText] [] := by
  have hn : p.nextText ∉ p.pending := h.fresh (by rw [← hi.allocated]; exact hb)
  refine ⟨?_, by rw [hi.allocated]; omega, List.nodup_singleton _, ?_, ?_⟩
  · refine h.allocate hi.nextReference hi.allocated (fun r hr => ?_) hb
    rw [hi.pending, Std.ExtTreeMap.mem_insert] at hr
    rcases hr with hr | hr
    · exact .inr (Std.LawfulEqOrd.eq_of_compare hr).symm
    · exact .inl hr
  · intro r hr
    rw [List.mem_singleton.mp hr]
    exact ⟨not_issued_nextText h.unwrapped (by rw [← hi.allocated]; exact hb),
      issued_nextText h.unwrapped hi.allocated hb⟩
  · intro r
    by_cases hr : r = p.nextText
    · subst hr
      simp [held, hi.pending, hn]
    · have hr' : p.nextText ≠ r := fun he => hr he.symm
      simp [held, hi.pending, hr']

/-- Requests leave the pending table, and a reference may be skipped. -/
theorem Clean.withdraw (h : p.Numbered)
    (hn : p'.nextReference = p.nextReference) (ha : p'.allocated = p.allocated)
    (hg : gone.Nodup) (hs : ∀ r ∈ gone, r ∈ p.pending)
    (hp : ∀ r, r ∈ p'.pending ↔ r ∈ p.pending ∧ r ∉ gone) : Clean p p' [] gone := by
  refine ⟨h.keep hn ha fun r hr => ((hp r).mp hr).1, Nat.le_of_eq ha.symm, List.nodup_nil, by simp,
    fun r => ?_⟩
  have hp' := hp r
  have hs' := hs r
  simp only [held, hg.count, List.count_nil, hp']
  by_cases hr : r ∈ gone
  · simp [hr, hs' hr]
  · simp [hr]

/-- The requests that do not meet a condition leave the pending table. -/
theorem Clean.filter (h : p.Numbered) {f : Reference → Pending → Bool}
    (hn : p'.nextReference = p.nextReference) (ha : p'.allocated = p.allocated)
    (hp : p'.pending = p.pending.filter fun r x => !f r x) :
    Clean p p' [] (p.pending.keysWhere f) := by
  refine .withdraw h hn ha (Table.nodup_keysWhere _ _) (fun r hr => ?_) fun r => ?_
  · obtain ⟨x, hx, _⟩ := Table.mem_keysWhere.mp hr
    grind
  · rw [hp, Table.mem_keysWhere]
    grind

/-- One request leaves the pending table. -/
theorem Clean.erase (h : p.Numbered) {r : Reference} (hr : r ∈ p.pending)
    (hn : p'.nextReference = p.nextReference) (ha : p'.allocated = p.allocated)
    (hp : p'.pending = p.pending.erase r) : Clean p p' [] [r] := by
  refine .withdraw h hn ha (List.nodup_singleton r) (by simpa using hr) fun r' => ?_
  rw [hp]
  grind

/-- Nothing pending changes. -/
theorem Clean.keep (h : p.Numbered) (hn : p'.nextReference = p.nextReference)
    (ha : p'.allocated = p.allocated) (hp : p'.pending = p.pending) : Clean p p' [] [] :=
  .withdraw h hn ha List.nodup_nil (by simp) (by simp [hp])

/-! ### The balance of every operation

A case for each operation. A rejoin drops what was pending for its topic, and the frame it returns
says so. -/

/-- A join returns the one reference it makes pending, or none. -/
theorem clean_join (h : p.Numbered) (topic : Topic) (params : Value)
    (hb : (p.join topic params).2.allocated < 2 ^ 64) :
    Clean p (p.join topic params).2 ((returning (p.join topic params).1).references) [] := by
  by_cases ha : (p.channelState topic).any ChannelState.active
  · rw [join_of_active ha]
    exact .refl h
  · rw [join_of_inactive ha] at hb ⊢
    exact .insert h ⟨rfl, rfl, rfl⟩ hb

theorem clean_discard (h : p.Numbered) (topic : Topic) :
    Clean p (p.discardChannel topic).2 [] (p.ofTopic topic) :=
  .filter h rfl rfl rfl

/-- A rejoin also takes back what was pending of its topic, and accounts for it as replaced. -/
theorem clean_rejoin (h : p.Numbered) (topic : Topic) (params : Value)
    (hb : (p.rejoin topic params).2.allocated < 2 ^ 64) :
    Clean p (p.rejoin topic params).2 ((returning (p.rejoin topic params).1).references)
      (p.replaced topic) := by
  cases hs : p.channelState topic with
  | none =>
    have hr : p.replaced topic = [] := by simp [replaced, hs]
    rw [rejoin_of_unknown hs] at hb ⊢
    rw [hr]
    exact clean_join h topic params hb
  | some state =>
    by_cases ha : state.active
    · have hr : p.replaced topic = [] := by simp [replaced, hs, ha]
      rw [rejoin_of_active hs ha, hr]
      exact .refl h
    · have hr : p.replaced topic = p.ofTopic topic := by simp [replaced, hs, ha]
      rw [rejoin_of_inactive hs ha] at hb ⊢
      rw [hr]
      have hd := clean_discard h topic
      simpa using hd.trans (clean_join hd.numbered topic params hb)

theorem rejoinEach_cons (p : Protocol) (topic : Topic) (params : Value)
    (rest : List (Topic × Value)) :
    p.rejoinEach ((topic, params) :: rest) =
      ((returning (p.rejoin topic params).1).sent ++ ((p.rejoin topic params).2.rejoinEach rest).1,
        ((p.rejoin topic params).2.rejoinEach rest).2) := by
  rcases hr : p.rejoin topic params with ⟨_ | _, _⟩ <;> simp [rejoinEach, returning, hr]

theorem rejoinEach_grows (p : Protocol) (targets : List (Topic × Value)) :
    p.allocated ≤ (p.rejoinEach targets).2.allocated := by
  induction targets generalizing p with
  | nil => exact Nat.le_refl _
  | cons target rest ih =>
    refine Nat.le_trans (rejoin_grows p target.1 target.2) ?_
    rw [rejoinEach_cons]
    exact ih _

/-- The balances of the single rejoins, one after the other. -/
theorem clean_rejoinEach (targets : List (Topic × Value)) (h : p.Numbered)
    (hb : (p.rejoinEach targets).2.allocated < 2 ^ 64) :
    Clean p (p.rejoinEach targets).2 ((p.rejoinEach targets).1.map Outbound.reference)
      (p.replacedEach targets) := by
  induction targets generalizing p with
  | nil => exact .refl h
  | cons target rest ih =>
    obtain ⟨topic, params⟩ := target
    have hgrow := rejoinEach_grows (p.rejoin topic params).2 rest
    rw [rejoinEach_cons] at hb ⊢
    have hone := clean_rejoin h topic params (Nat.lt_of_le_of_lt hgrow hb)
    have hrest := hone.trans (ih hone.numbered hb)
    simpa [replacedEach, Outcome.references] using hrest

/-- A leave returns the one reference it makes pending, or none. -/
theorem clean_leave (h : p.Numbered) (topic : Topic) (hb : (p.leave topic).2.allocated < 2 ^ 64) :
    Clean p (p.leave topic).2 (returning (p.leave topic).1).references [] := by
  have hskip : p.allocated + 1 < 2 ^ 64 → Clean p p.allocateReference.2 [] [] := fun hlt =>
    ⟨h.allocate rfl rfl (fun r hr => .inl hr) hlt, Nat.le_succ _, List.nodup_nil, by simp,
      fun _ => rfl⟩
  rcases leave_cases p topic with ⟨error, hl⟩ | ⟨channel, hc, hs⟩
  · rw [hl] at hb ⊢
    exact hskip hb
  · rw [leave_of_joined hc hs] at hb ⊢
    exact .insert h ⟨rfl, rfl, rfl⟩ hb

/-- A push returns the one reference it makes pending, or none. -/
theorem clean_push (h : p.Numbered) (topic : Topic) (event : String) (payload : Payload)
    (hb : (p.push topic event payload).2.allocated < 2 ^ 64) :
    Clean p (p.push topic event payload).2
      (returning (p.push topic event payload).1).references [] := by
  cases hj : p.joinedRef topic with
  | none =>
    rw [push_of_not_joined hj]
    exact .refl h
  | some joinRef =>
    rw [push_of_joined hj] at hb ⊢
    exact .insert h ⟨rfl, rfl, rfl⟩ hb

/-- The requests a reset reports are those that are not heartbeats. -/
theorem interrupted_eq (p : Protocol) :
    p.resetConnection.1.filterMap ProtocolEvent.subject =
      p.pending.keysWhere fun _ pending => pending != .heartbeat := by
  show (p.pending.toList.filterMap _).filterMap _ = (p.pending.toList.filter _).map _
  induction p.pending.toList with
  | nil => rfl
  | cons entry rest ih =>
    obtain ⟨r, pending⟩ := entry
    cases pending <;> simp_all [interruption, ProtocolEvent.subject]

/-- A reset takes everything back: each request with an interruption, each heartbeat without. -/
theorem clean_reset (h : p.Numbered) :
    Clean p p.resetConnection.2 []
      (p.resetConnection.1.filterMap ProtocolEvent.subject ++ p.heartbeats) := by
  have hmem : ∀ r, r ∈ p.resetConnection.1.filterMap ProtocolEvent.subject ++ p.heartbeats ↔
      r ∈ p.pending := by
    intro r
    simp only [interrupted_eq, heartbeats, List.mem_append, Table.mem_keysWhere]
    grind
  refine .withdraw h rfl rfl ?_ (fun r hr => (hmem r).mp hr) fun r => ?_
  · rw [interrupted_eq]
    refine List.Nodup.append (Table.nodup_keysWhere _ _) (Table.nodup_keysWhere _ _) ?_
    intro r hr hr'
    obtain ⟨x, hx, hne⟩ := Table.mem_keysWhere.mp hr
    obtain ⟨y, hy, heq⟩ := Table.mem_keysWhere.mp hr'
    grind
  · rw [hmem]
    simp [resetConnection]

/-- A frame takes back the request it answers, or none. -/
theorem clean_receive (h : p.Numbered) (frame : Frame) :
    Clean p (p.receive frame).2 [] (consumed frame (p.receive frame).1) := by
  have hr := received p frame
  generalize (p.receive frame).1 = result at hr ⊢
  generalize (p.receive frame).2 = p' at hr ⊢
  cases hr with
  | stale | unmatched | message => exact .keep h rfl rfl rfl
  | closed | errored => exact .keep h rfl rfl rfl
  | @malformed r pending e _ _ href hp _ =>
    show Clean p _ [] frame.reference.toList
    rw [href]
    exact .erase h (by grind) rfl rfl rfl
  | @settled r pending status response _ _ _ hp _ =>
    have hsub : (settle { p with pending := p.pending.erase r } r status response pending).1.subject
        = some r := by
      cases pending <;> cases status <;> rfl
    simp only [consumed, hsub]
    exact .erase h (by grind) (by simp) (by simp) (by simp)

@[simp] theorem map_fst_fate (rs : List Reference) (fate : Fate) :
    (rs.map (·, fate)).map Prod.fst = rs := by
  simp [Function.comp_def]

/-- Every operation is clean: what it returns becomes pending, and what stops being pending has its fate
told. -/
theorem clean_perform (h : p.Numbered) (op : Op) (hb : (p.perform op).2.allocated < 2 ^ 64) :
    Clean p (p.perform op).2 (p.perform op).1.references ((p.fates op).map Prod.fst) := by
  cases op with
  | join topic params => exact clean_join h topic params hb
  | rejoin topic params =>
    simp only [fates, map_fst_fate]
    exact clean_rejoin h topic params hb
  | rejoinAllWithStoredParams order =>
    simp only [fates, map_fst_fate]
    exact clean_rejoinEach _ h hb
  | leave topic => exact clean_leave h topic hb
  | push topic event payload => exact clean_push h topic event payload hb
  | heartbeat => exact .insert h ⟨rfl, rfl, rfl⟩ hb
  | forgetPush r =>
    rcases forgetPush_cases p r with ⟨_, _, hr, he⟩ | he
    · simp only [perform, fates, he]
      exact .erase h (by grind) rfl rfl rfl
    · simp only [perform, fates, he]
      exact .refl h
  | forgetHeartbeat r =>
    rcases forgetHeartbeat_cases p r with ⟨hr, he⟩ | he
    · simp only [perform, fates, he]
      exact .erase h (by grind) rfl rfl rfl
    · simp only [perform, fates, he]
      exact .refl h
  | discardChannel topic =>
    simp only [fates, map_fst_fate]
    exact clean_discard h topic
  | resetConnection =>
    simp only [fates, map_fst_fate, List.map_append]
    exact clean_reset h
  | receive frame =>
    have hs : (reporting (p.receive frame).1).sent = [] := by
      cases (p.receive frame).1 <;> rfl
    simp only [fates, map_fst_fate, perform, Outcome.references, hs, List.map_nil]
    exact clean_receive h frame

/-- References are only ever handed out. -/
theorem perform_grows (p : Protocol) (op : Op) : p.allocated ≤ (p.perform op).2.allocated := by
  cases op with
  | join topic params => exact join_grows p topic params
  | rejoin topic params => exact rejoin_grows p topic params
  | rejoinAllWithStoredParams order => exact rejoinEach_grows p _
  | leave topic => exact leave_grows p topic
  | push topic event payload => exact push_grows p topic event payload
  | heartbeat => exact Nat.le_succ _
  | forgetPush r | forgetHeartbeat r =>
    simp only [perform, forgetPush, forgetHeartbeat]
    split <;> exact Nat.le_refl _
  | discardChannel topic => exact Nat.le_refl _
  | resetConnection => exact Nat.le_refl _
  | receive frame => exact Nat.le_of_eq (receive_allocated p frame).symm

/-- A request an event reports on was pending before. -/
theorem subject_pending {op : Op} {event : ProtocolEvent} {r : Reference}
    (he : event ∈ (p.perform op).1.events) (hs : event.subject = some r) : r ∈ p.pending := by
  cases op with
  | receive frame =>
    have hr := received p frame
    simp only [perform] at he
    generalize (p.receive frame).1 = result at hr he
    generalize (p.receive frame).2 = p' at hr
    cases hr with
    | @settled r' pending status response _ _ _ hp _ =>
      rw [List.mem_singleton.mp he] at hs
      cases pending <;> cases status <;> cases hs <;> grind
    | malformed => cases he
    | _ =>
      rw [List.mem_singleton.mp he] at hs
      cases hs
  | resetConnection =>
    have hm : r ∈ p.resetConnection.1.filterMap ProtocolEvent.subject :=
      List.mem_filterMap.mpr ⟨event, he, hs⟩
    rw [interrupted_eq] at hm
    obtain ⟨x, hx, _⟩ := Table.mem_keysWhere.mp hm
    grind
  | join topic params | rejoin topic params | leave topic | push topic event payload =>
    simp only [perform, returning_events] at he
    cases he
  | _ => cases he

end Protocol

/-! ### Whole runs

The balance of the single operations, added up over any order of them. -/

/-- The protocol with every reference it returned, and every one it settled. -/
structure Ledger where
  protocol : Protocol
  returned : List Reference
  settled : List (Reference × Fate)

namespace Ledger

/-- How often a reference met a fate. -/
def times (l : Ledger) (fate : Fate) (r : Reference) : Nat := l.settled.count (r, fate)

/-- The order given to a rejoin of all topics must be one the channel map can have. -/
def possible (p : Protocol) : Op → Bool
  | .rejoinAllWithStoredParams order => Table.IsOrder order p.channels
  | _ => true

def record (l : Ledger) (op : Op) : Ledger where
  protocol := (l.protocol.perform op).2
  returned := l.returned ++ (l.protocol.perform op).1.references
  settled := l.settled ++ l.protocol.fates op

def machine : Machine Ledger Op where
  start := ⟨.new, [], []⟩
  step l op := if possible l.protocol op then some (l.record op) else none

theorem eq_record {l l' : Ledger} {op : Op} (h : machine.step l op = some l') : l' = l.record op := by
  simp only [machine] at h
  split at h
  · exact (Option.some.inj h).symm
  · cases h

/-- Every reference is pending or settled as often as it was returned. -/
structure Balanced (l : Ledger) : Prop where
  numbered : l.protocol.Numbered
  nodup : l.returned.Nodup
  issued : ∀ r ∈ l.returned, l.protocol.Issued r
  balance : ∀ r, l.protocol.held r + (l.settled.map Prod.fst).count r = l.returned.count r

/-- One operation keeps the balance of the ledger. -/
theorem balanced_record {l : Ledger} (h : l.Balanced) (op : Op)
    (hb : (l.record op).protocol.allocated < 2 ^ 64) : (l.record op).Balanced := by
  have hc := Protocol.clean_perform h.numbered op hb
  refine ⟨hc.numbered, ?_, ?_, ?_⟩
  · refine List.Nodup.append h.nodup hc.nodup fun r hr hr' => ?_
    exact (hc.fresh r hr').1 (h.issued r hr)
  · intro r hr
    rcases List.mem_append.mp hr with hr | hr
    · exact (h.issued r hr).mono hc.grows
    · exact (hc.fresh r hr).2
  · intro r
    have h1 := h.balance r
    have h2 := hc.balance r
    simp only [record, List.map_append, List.count_append]
    omega

/-- The balance holds after every run in which the counter has not wrapped. -/
theorem balanced {l : Ledger} (h : machine.Reachable l) (hb : l.protocol.allocated < 2 ^ 64) :
    l.Balanced := by
  refine Machine.Reach.invariant (P := fun l => l.protocol.allocated < 2 ^ 64 → l.Balanced) ?_ ?_ h hb
  · intro _
    exact ⟨Protocol.numbered_new, List.nodup_nil, by simp [machine], fun r => by
      simp [machine, Protocol.held, Protocol.new]⟩
  · intro l op l' _ ih _ hs hlt
    cases eq_record hs
    refine balanced_record (ih ?_) op hlt
    exact Nat.lt_of_le_of_lt (Protocol.perform_grows _ _) hlt

/-- What a run keeps: references stay returned, settled ones stay settled, numbers grow. -/
structure Extends (l l' : Ledger) : Prop where
  returned : ∀ r ∈ l.returned, r ∈ l'.returned
  settled : ∀ r, (l.settled.map Prod.fst).count r ≤ (l'.settled.map Prod.fst).count r
  grows : l.protocol.allocated ≤ l'.protocol.allocated

/-- A ledger is only added to. -/
theorem extends_run {l l' : Ledger} {ops : List Op} (h : machine.run l ops = some l') :
    Extends l l' := by
  induction ops generalizing l with
  | nil =>
    cases h
    exact ⟨fun _ hr => hr, fun _ => Nat.le_refl _, Nat.le_refl _⟩
  | cons op rest ih =>
    obtain ⟨m, hm, hrest⟩ := Machine.run_cons.mp h
    cases eq_record hm
    have he := ih hrest
    refine ⟨fun r hr => he.returned r (List.mem_append_left _ hr), fun r => ?_,
      Nat.le_trans (Protocol.perform_grows _ _) he.grows⟩
    refine Nat.le_trans ?_ (he.settled r)
    simp only [record, List.map_append, List.count_append]
    omega

/-- The settlements of a reference, fate by fate. -/
theorem count_settled (l : Ledger) (r : Reference) :
    (l.settled.map Prod.fst).count r =
      l.times .consumed r + l.times .interrupted r + l.times .dropped r + l.times .withdrawn r := by
  unfold times
  induction l.settled with
  | nil => rfl
  | cons entry rest ih =>
    obtain ⟨r', fate⟩ := entry
    by_cases hr : r' = r
    · subst hr
      cases fate <;> simp <;> omega
    · simp only [List.map_cons, List.count_cons, Prod.mk.injEq, beq_iff_eq, hr, false_and, if_false]
      omega

theorem returned_once {l : Ledger} (h : l.Balanced) {r : Reference} (hr : r ∈ l.returned) :
    l.protocol.held r + (l.settled.map Prod.fst).count r = 1 := by
  rw [h.balance r, h.nodup.count, if_pos hr]

/-- **Every request has exactly one outcome.** In every run with fewer than 2^64 - 1
references the returned ones are distinct, the pending ones are among them, an operation
returns none that is pending already, and each is either pending or met one fate once. One that is no
longer pending is never pending again, and no later event reports on it. -/
theorem one_outcome_per_request {l : Ledger} (h : machine.Reachable l)
    (hb : l.protocol.allocated < 2 ^ 64 - 1) :
    l.returned.Nodup ∧
    (∀ r, r ∈ l.protocol.pending → r ∈ l.returned) ∧
    (∀ op l', machine.step l op = some l' → l'.protocol.allocated < 2 ^ 64 - 1 →
      ∀ r ∈ (l.protocol.perform op).1.references, r ∉ l.protocol.pending) ∧
    (∀ r ∈ l.returned,
      l.protocol.held r + l.times .consumed r + l.times .interrupted r + l.times .dropped r +
        l.times .withdrawn r = 1) ∧
    (∀ r ∈ l.returned, r ∉ l.protocol.pending →
      ∀ ops l', machine.run l ops = some l' → l'.protocol.allocated < 2 ^ 64 - 1 →
        r ∉ l'.protocol.pending ∧
        ∀ op, ∀ event ∈ (l'.protocol.perform op).1.events, event.subject ≠ some r) := by
  have hbal := balanced h (by omega)
  refine ⟨hbal.nodup, ?_, ?_, ?_, ?_⟩
  · intro r hr
    have := hbal.balance r
    simp only [Protocol.held, if_pos hr] at this
    exact List.count_pos_iff.mp (by omega)
  · intro op l' hs hlt r hr hp
    cases eq_record hs
    have hc := Protocol.clean_perform hbal.numbered op (by simp only [record] at hlt; omega)
    exact (hc.fresh r hr).1 (hbal.numbered.pending r hp)
  · intro r hr
    have := returned_once hbal hr
    rw [count_settled] at this
    omega
  · intro r hr hp ops l' hrun hlt
    have hx := extends_run hrun
    have hbal' := balanced (Machine.Reachable.run h hrun) (by omega)
    have hone := returned_once hbal hr
    have hone' := returned_once hbal' (hx.returned r hr)
    have hle := hx.settled r
    have hout : r ∉ l'.protocol.pending := by
      intro hp'
      simp only [Protocol.held, if_neg hp, if_pos hp'] at hone hone'
      omega
    exact ⟨hout, fun op event he hs => hout (Protocol.subject_pending he hs)⟩

/-- A join and a push, each with its reply, and a late copy of the second reply. -/
def exchange : List Op :=
  let reply (r : Reference) : Frame := ⟨some "1", some r, "room", "phx_reply", .reply "ok" .emptyObject⟩
  [.join "room" .null, .receive (reply "1"), .push "room" "say" .emptyObject, .receive (reply "2"),
    .receive (reply "2")]

/-- The late copy consumes nothing: the push was settled once, by the first reply. -/
theorem one_outcome_per_request_exchange :
    ∃ l, machine.run machine.start exchange = some l ∧ l.returned = ["1", "2"] ∧
      l.returned.Nodup ∧ l.times .consumed "2" = 1 := by
  refine ⟨_, rfl, rfl, ?_, by decide⟩
  exact (one_outcome_per_request (Machine.reachable_iff_run.mpr ⟨exchange, rfl⟩) (by decide)).1

end Ledger
end PhoenixChannel.Runtime
