import PhoenixChannel.Client.Conservation
import PhoenixChannel.Client.Generations

/-! Which records there are, and which loads they wait for.

A handler starts a load under the next id, lets a record wait on, or stops its waiting. Only
the result of a load sends a join; every other frame goes out under the join reference its
topic's channel has. Registering and unregistering are all that records come and go by. -/
namespace PhoenixChannel.Client
open PhoenixChannel.Runtime Library

/-- A load of a topic's join payload. -/
abbrev Load := Topic × UInt64

/-- The load an effect starts. -/
def Effect.load : Effect → Option Load
  | .loading topic payloadId _ _ => some (topic, payloadId)
  | _ => none

/-- The loads started, in order. -/
def loadsOf (effects : List Effect) : List Load := effects.filterMap Effect.load

/-- The load of the topic that was started last, or else the one from before. -/
def lastLoad (t : Topic) (before : Option UInt64) (loads : List Load) : Option UInt64 :=
  loads.foldl (fun current load => if load.1 = t then some load.2 else current) before

/-- Each load has the id after the one before it, up to the last. -/
def Successive : UInt64 → List Load → UInt64 → Prop
  | id, [], last => last = id
  | id, load :: rest, last => load.2 = Protocol.advance id ∧ Successive load.2 rest last

section
variable {t : Topic} {loads loads' : List Load} {effects effects' : List Effect}

@[simp] theorem loadsOf_nil : loadsOf [] = [] := rfl

@[simp] theorem loadsOf_append : loadsOf (effects ++ effects') = loadsOf effects ++ loadsOf effects' :=
  List.filterMap_append

theorem loadsOf_of_idle (h : ∀ effect ∈ effects, ¬ effect.Sends) : loadsOf effects = [] := by
  refine List.filterMap_eq_nil_iff.mpr fun effect hm => ?_
  cases effect with
  | loading => exact (h _ hm trivial).elim
  | _ => rfl

theorem loadsOf_sent (served : List RequestId) (frame : Frame) (events : List TelemetryEvent) :
    loadsOf (.outgoing served frame :: events.map .telemetry) = [] := by
  refine List.filterMap_eq_nil_iff.mpr fun effect hm => ?_
  rcases List.mem_cons.mp hm with rfl | hm
  · rfl
  · obtain ⟨event, -, rfl⟩ := List.mem_map.mp hm
    rfl

@[simp] theorem lastLoad_nil (t : Topic) (before : Option UInt64) : lastLoad t before [] = before := rfl

theorem lastLoad_cons (t topic : Topic) (before : Option UInt64) (id : UInt64) (rest : List Load) :
    lastLoad t before ((topic, id) :: rest) =
      lastLoad t (if topic = t then some id else before) rest :=
  rfl

theorem lastLoad_append (t : Topic) (before : Option UInt64) (loads loads' : List Load) :
    lastLoad t before (loads ++ loads') = lastLoad t (lastLoad t before loads) loads' :=
  List.foldl_append

/-- Some load is of the topic, and what was before does not matter; or none is. -/
theorem lastLoad_cases (t : Topic) (loads : List Load) :
    (∀ before, lastLoad t before loads = before) ∨
      ∃ id, (t, id) ∈ loads ∧ ∀ before, lastLoad t before loads = some id := by
  induction loads with
  | nil => exact .inl fun _ => rfl
  | cons load rest ih =>
    obtain ⟨topic, id⟩ := load
    rcases ih with hnone | ⟨id', hm, hsome⟩
    · by_cases ht : topic = t
      · subst ht
        refine .inr ⟨id, List.mem_cons_self, fun before => ?_⟩
        rw [lastLoad_cons, hnone, if_pos rfl]
      · refine .inl fun before => ?_
        rw [lastLoad_cons, hnone, if_neg ht]
    · refine .inr ⟨id', List.mem_cons_of_mem _ hm, fun before => ?_⟩
      rw [lastLoad_cons, hsome]

/-- Where the topic was loaded there is a last load of it. -/
theorem lastLoad_ne_none {id : UInt64} (hm : (t, id) ∈ loads) (before : Option UInt64) :
    lastLoad t before loads ≠ none := by
  induction loads generalizing before with
  | nil => cases hm
  | cons load rest ih =>
    obtain ⟨topic, id'⟩ := load
    rw [lastLoad_cons]
    rcases List.mem_cons.mp hm with he | hm
    · cases he
      rcases lastLoad_cases t rest with hkeep | ⟨id', -, hsome⟩
      · rw [hkeep, if_pos rfl]
        nofun
      · rw [hsome]
        nofun
    · exact ih hm _

theorem Successive.append {id mid last : UInt64} (h : Successive id loads mid)
    (h' : Successive mid loads' last) : Successive id (loads ++ loads') last := by
  induction loads generalizing id with
  | nil =>
    cases h
    exact h'
  | cons load rest ih => exact ⟨h.1, ih h.2⟩

/-- While there are fewer than 2^64 loads, later ones have greater ids. -/
theorem Successive.increasing {id last : UInt64} (h : Successive id loads last)
    (hb : id.toNat + loads.length < 2 ^ 64) :
    (∀ load ∈ loads, id.toNat < load.2.toNat) ∧
      loads.Pairwise fun load later => load.2.toNat < later.2.toNat := by
  induction loads generalizing id with
  | nil => exact ⟨nofun, .nil⟩
  | cons load rest ih =>
    obtain ⟨hload, hrest⟩ := h
    rw [List.length_cons] at hb
    have hnext : load.2.toNat = id.toNat + 1 := by
      rw [hload]
      exact Protocol.advance_toNat (by omega)
    obtain ⟨habove, hpairs⟩ := ih hrest (by omega)
    refine ⟨fun later hm => ?_, List.pairwise_cons.mpr ⟨habove, hpairs⟩⟩
    rcases List.mem_cons.mp hm with rfl | hm
    · omega
    · have := habove later hm
      omega

theorem Successive.nodup {id last : UInt64} (h : Successive id loads last)
    (hb : id.toNat + loads.length < 2 ^ 64) : loads.Nodup := by
  refine (h.increasing hb).2.imp fun hlt he => ?_
  rw [he] at hlt
  exact Nat.lt_irrefl _ hlt

end

namespace Driver

/-- The load the topic's record waits for. -/
def awaited (d : Driver) (t : Topic) : Option UInt64 := (d.record t).bind ChannelRecord.activePayload

/-- The topic's channel is known, with that join reference. -/
def Known (d : Driver) (t : Topic) (j : Reference) : Prop :=
  ∃ c : Channel, d.state.protocol.channels[t]? = some c ∧ c.joinRef = j

/-- The frame is a heartbeat, or goes out under the join reference its topic's channel has. -/
def Grounded (d : Driver) (frame : Frame) : Prop :=
  (frame.joinRef = none ∧ frame.event = "heartbeat") ∨
    ∃ j, frame.joinRef = some j ∧ d.Known frame.topic j

/-- What becomes of records, loads and join generations while `effects` are done. Only the
record of `gone` may come or go, only `joins` may be joined. -/
structure Continued (gone joins : Option Topic) (effects : List Effect) (d d' : Driver) : Prop where
  records : ∀ t : Topic, gone ≠ some t → (d'.record t).isSome = (d.record t).isSome
  awaited : ∀ t : Topic,
    d'.awaited t = none ∨ d'.awaited t = lastLoad t (d.awaited t) (loadsOf effects)
  ids : Successive d.state.nextPayloadId (loadsOf effects) d'.state.nextPayloadId
  payloads : ∀ load ∈ d'.connection.payloads, load ∈ d.connection.payloads ∨ load ∈ loadsOf effects
  known : ∀ (t : Topic) (j : Reference), joins ≠ some t → d'.Known t j → d.Known t j
  frames : ∀ (served : List RequestId) (frame : Frame),
    .outgoing served frame ∈ effects → joins ≠ some frame.topic → d.Grounded frame

def Continues (gone joins : Option Topic) (d d' : Driver) : Prop :=
  ∃ effects, d'.trace = d.trace ++ effects ∧ Continued gone joins effects d d'

section
variable {gone joins : Option Topic} {topic : Topic} {d d' d'' : Driver} {effects : List Effect}

/-- A frame that may go out later may go out now, unless its topic is joined in between. -/
theorem Continued.grounded (h : Continued gone joins effects d d') {frame : Frame}
    (hj : joins ≠ some frame.topic) (hg : d'.Grounded frame) : d.Grounded frame := by
  refine hg.imp_right fun hk => ?_
  obtain ⟨j, hr, hk⟩ := hk
  exact ⟨j, hr, h.known frame.topic j hj hk⟩

/-- The loads of both steps come one after the other, and a record waits for the last of them. -/
theorem Continues.trans (h : Continues gone joins d d') (h' : Continues gone joins d' d'') :
    Continues gone joins d d'' := by
  obtain ⟨effects, ht, h⟩ := h
  obtain ⟨effects', ht', h'⟩ := h'
  refine ⟨effects ++ effects', by rw [ht', ht, List.append_assoc], fun t hg => ?_, fun t => ?_, ?_,
    fun load hm => ?_, fun t j hj hk => h.known t j hj (h'.known t j hj hk), ?_⟩
  · exact (h'.records t hg).trans (h.records t hg)
  · rw [loadsOf_append, lastLoad_append]
    rcases h'.awaited t with hnone | hlast
    · exact .inl hnone
    rcases h.awaited t with hnone' | hlast'
    · -- what is started next does not depend on what was awaited
      rcases lastLoad_cases t (loadsOf effects') with hid | ⟨id, -, hsome⟩
      · rw [hid, hnone'] at hlast
        exact .inl hlast
      · rw [hsome] at hlast ⊢
        exact .inr hlast
    · rw [hlast'] at hlast
      exact .inr hlast
  · rw [loadsOf_append]
    exact h.ids.append h'.ids
  · rw [loadsOf_append, List.mem_append, ← or_assoc]
    rcases h'.payloads load hm with hm | hm
    · exact .inl (h.payloads load hm)
    · exact .inr hm
  · intro served frame hm hj
    rcases List.mem_append.mp hm with hm | hm
    · exact h.frames served frame hm hj
    · exact h.grounded hj (h'.frames served frame hm hj)

/-- Nothing is sent or started, and records wait on or stop waiting. -/
theorem Continues.of_idle (hr : ∀ t : Topic, gone ≠ some t → (d'.record t).isSome = (d.record t).isSome)
    (ha : ∀ t : Topic, d'.awaited t = none ∨ d'.awaited t = d.awaited t)
    (hn : d'.state.nextPayloadId = d.state.nextPayloadId)
    (hl : ∀ load ∈ d'.connection.payloads, load ∈ d.connection.payloads)
    (hk : ∀ (t : Topic) (j : Reference), joins ≠ some t → d'.Known t j → d.Known t j)
    (he : d.Emits (fun effect => ¬ effect.Sends) d') : Continues gone joins d d' := by
  obtain ⟨effects, ht, hidle⟩ := he
  have hnone := loadsOf_of_idle hidle
  refine ⟨effects, ht, hr, fun t => ?_, ?_, fun load hm => .inl (hl load hm), hk,
    fun served frame hm => absurd trivial (hidle _ hm)⟩
  · rw [hnone]
    exact ha t
  · rw [hnone]
    exact hn

/-- Records and channels stay as they are. -/
theorem Continues.of_same (hr : d'.state.channels = d.state.channels)
    (hn : d'.state.nextPayloadId = d.state.nextPayloadId)
    (hl : d'.connection.payloads = d.connection.payloads)
    (hp : d'.state.protocol.channels = d.state.protocol.channels)
    (he : d.Emits (fun effect => ¬ effect.Sends) d') : Continues gone joins d d' := by
  have hrec : ∀ t : Topic, d'.record t = d.record t := fun t => by rw [record, hr, record]
  refine .of_idle (fun t _ => by rw [hrec]) (fun t => .inr (by rw [Driver.awaited, hrec, Driver.awaited]))
    hn (fun load hm => by rw [← hl]; exact hm) (fun t j _ hk => ?_) he
  obtain ⟨c, hc, hj⟩ := hk
  exact ⟨c, by rw [← hp]; exact hc, hj⟩

theorem Continues.refl (gone joins : Option Topic) (d : Driver) : Continues gone joins d d :=
  .of_same rfl rfl rfl rfl (.refl _ d)

theorem Continues.same (h : Continues gone joins d d') (hr : d''.state.channels = d'.state.channels)
    (hn : d''.state.nextPayloadId = d'.state.nextPayloadId)
    (hl : d''.connection.payloads = d'.connection.payloads)
    (hp : d''.state.protocol.channels = d'.state.protocol.channels)
    (he : d'.Emits (fun effect => ¬ effect.Sends) d'') : Continues gone joins d d'' :=
  h.trans (.of_same hr hn hl hp he)

theorem Continues.emitAll (h : Continues gone joins d d') (he : ∀ effect ∈ effects, ¬ effect.Sends) :
    Continues gone joins d (d'.emitAll effects) :=
  h.same rfl rfl rfl rfl ⟨effects, rfl, he⟩

theorem Continues.emitChannel (h : Continues gone joins d d') {event : ChannelEvent} :
    Continues gone joins d (d'.emitChannel topic event) := by
  rw [emitChannel_eq]
  exact h.emitAll fun effect hm => idle_of_report (channelEffects_report d' topic event effect hm)

theorem Continues.answers (h : Continues gone joins d d') {operation : ClientOperation}
    {ids : List RequestId} {result : Except ClientError Success} :
    Continues gone joins d (d'.emitAll (ids.map fun id => .answered operation id result)) := by
  refine h.emitAll fun effect hm => ?_
  obtain ⟨id, -, rfl⟩ := List.mem_map.mp hm
  exact not_false

theorem Continues.answerLeave (h : Continues gone joins d d') {pending : Option PendingLeave}
    {result : Except ClientError Success} :
    Continues gone joins d (d'.answerLeave pending result) := by
  rw [answerLeave_eq]
  refine h.emitAll fun effect hm => ?_
  obtain ⟨leave, -, -, rfl⟩ := mem_leaveAnswers hm
  exact not_false

theorem awaited_of_some {channel : ChannelRecord} (h : d.record topic = some channel) :
    d.awaited topic = channel.activePayload := by
  rw [awaited, h]
  rfl

theorem awaited_of_none (h : d.record topic = none) : d.awaited topic = none := by
  rw [awaited, h]
  rfl

/-- A record is written that waits for the same load, or for none. -/
theorem Continues.setRecord (h : Continues gone joins d d') {channel channel' : ChannelRecord}
    (hr : d'.record topic = some channel)
    (ha : channel'.activePayload = none ∨ channel'.activePayload = channel.activePayload) :
    Continues gone joins d (d'.setRecord topic channel') := by
  refine h.trans (.of_idle (fun t _ => ?_) (fun t => ?_) rfl (fun _ hm => hm) (fun _ _ _ hk => hk)
    (.of_trace rfl))
  · rw [record_setRecord_eq]
    by_cases ht : t = topic
    · rw [if_pos ht, ht, hr]
      rfl
    · rw [if_neg ht]
  · by_cases ht : t = topic
    · rw [ht, awaited_of_some (record_setRecord ..), awaited_of_some hr]
      exact ha
    · rw [awaited, record_setRecord_eq, if_neg ht]
      exact .inr rfl

/-- A status is neither a record nor a load. -/
theorem Continues.setStatus (h : Continues gone joins d d') {status : ChannelStatus} :
    Continues gone joins d (d'.setStatus topic status) := by
  cases hr : d'.record topic with
  | none =>
    rw [setStatus_of_none hr]
    exact h
  | some channel =>
    rw [setStatus_of_some hr]
    exact h.setRecord hr (.inr rfl)

/-- A stopped channel waits for no load. -/
theorem Continues.stopChannel (h : Continues gone joins d d') :
    Continues gone joins d (d'.stopChannel topic) := by
  cases hr : d'.record topic with
  | none =>
    rw [stopChannel_of_none hr]
    exact h
  | some channel =>
    rw [stopChannel_of_some hr]
    refine (h.setRecord hr (.inl rfl)).emitAll fun effect hm => ?_
    rcases mem_stopEffects hm with ⟨operation, id, rfl⟩ | ⟨event, rfl⟩ <;> exact not_false

/-- A rejoin that is scheduled is not loaded yet. -/
theorem Continues.scheduleRejoin (h : Continues gone joins d d') {env : Env} :
    Continues gone joins d (d'.scheduleRejoin env topic) := by
  rcases scheduleRejoin_cases env d' topic with ⟨-, he⟩ | ⟨channel, hr, -, -, he⟩
  · rw [he]
    exact h
  · rw [he]
    have hset : Continues gone joins d (d'.setRecord topic { channel with
        rejoinScheduled := true, joinAttempt := nextAttempt channel.joinAttempt }) :=
      h.setRecord hr (.inr rfl)
    exact hset.same rfl rfl rfl rfl (.of_trace rfl)

theorem Continues.forgetJoins (h : Continues gone joins d d') :
    Continues gone joins d (d'.forgetJoins topic) :=
  h.same rfl rfl rfl rfl (.of_trace rfl)

theorem Continues.eraseJoin (h : Continues gone joins d d') {reference : Reference} :
    Continues gone joins d (d'.eraseJoin reference) :=
  h.same rfl rfl rfl rfl (.of_trace rfl)

theorem Continues.eraseLeave (h : Continues gone joins d d') {reference : Reference} :
    Continues gone joins d (d'.eraseLeave reference) :=
  h.same rfl rfl rfl rfl (.of_trace rfl)

/-- The protocol moves by an operation that joins nothing. -/
theorem Continues.setProtocol (h : Continues gone joins d d') {p : Protocol}
    (ha : d'.Aged (d'.setProtocol p)) : Continues gone joins d (d'.setProtocol p) := by
  refine h.trans (.of_idle (fun _ _ => rfl) (fun _ => .inr rfl) rfl (fun _ hm => hm) (fun t j _ hk => ?_)
    (.of_trace rfl))
  obtain ⟨c', hc', rfl⟩ := hk
  exact ha.channels t c' hc'

theorem Continues.discardChannel (h : Continues gone joins d d') :
    Continues gone joins d (d'.discardChannel topic) :=
  h.setProtocol (aged_discardChannel d' topic)

/-- A load is started under the next id. -/
theorem Continues.loadPayload (h : Continues gone joins d d') :
    Continues gone joins d (d'.loadPayload topic) := by
  rcases loadPayload_cases d' topic with ⟨-, he⟩ | ⟨channel, hr, -, -, -, he⟩
  · rw [he]
    exact h
  · rw [he]
    refine h.trans ⟨_, rfl, fun t _ => ?_, fun t => .inr ?_, ⟨rfl, rfl⟩, fun load hm => ?_,
      fun _ _ _ hk => hk, fun served frame hm => ?_⟩
    · rw [emitAll_record, trackLoad_record]
      by_cases ht : t = topic
      · rw [if_pos ht, ht, hr]
        rfl
      · rw [if_neg ht]
    · rw [awaited, emitAll_record, trackLoad_record]
      by_cases ht : t = topic
      · rw [if_pos ht, ht]
        simp [loadsOf, Effect.load, lastLoad]
      · rw [if_neg ht]
        simp [loadsOf, Effect.load, lastLoad, Ne.symm ht]
        rfl
    · rcases List.mem_append.mp hm with hm | hm
      · exact .inl hm
      · exact .inr hm
    · cases List.mem_singleton.mp hm

end

end Driver
end PhoenixChannel.Client
