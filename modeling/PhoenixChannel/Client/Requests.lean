import PhoenixChannel.Client.InFlight
import PhoenixChannel.Client.Traces

/-! The requests the driver holds.

A response sender sits in a record or in one of three tables. `held` lists the requests of all
of them, once for each place, and `owed` leaves out a leave that was cancelled, which keeps its
place without its response. `Honors L given d d'` says what became of them, and of the `given`
requests a handler has in hand, from `d` to `d'`: each is still owed, or was settled by an
effect. Effects that accept or cancel a request or reply to a call have to be of the kind `L`. -/
namespace PhoenixChannel.Client
open PhoenixChannel.Runtime Library
open Protocol (Move Moves)

/-- A request, with what it asks for. -/
abbrev Request := ClientOperation × RequestId

def PendingLeave.owed (leave : PendingLeave) : List Request :=
  if leave.response then [(.leave, leave.id)] else []

def PendingCall.owed (call : PendingCall) : List Request := [(.call, call.id)]

def PendingPing.owed (ping : PendingPing) : List Request := [(.ping, ping.id)]

def QueuedPush.request (push : QueuedPush) : Request := (push.operation, push.id)

/-- What a deferred leave is owed, if there is one. -/
def leaveOwed (deferred : Option PendingLeave) : List Request := deferred.elim [] PendingLeave.owed

/-- The requests a record holds the responses of. -/
def ChannelRecord.owed (channel : ChannelRecord) : List Request :=
  channel.joinWaiters.map (Prod.mk .join) ++ channel.queued.map QueuedPush.request ++
    leaveOwed channel.deferredLeave

/-- A leave keeps its place when it is cancelled. -/
def PendingLeave.held (leave : PendingLeave) : List Request := [(.leave, leave.id)]

def leaveHeld (deferred : Option PendingLeave) : List Request := deferred.elim [] PendingLeave.held

/-- The requests a record holds. -/
def ChannelRecord.held (channel : ChannelRecord) : List Request :=
  channel.joinWaiters.map (Prod.mk .join) ++ channel.queued.map QueuedPush.request ++
    leaveHeld channel.deferredLeave

namespace Effect

/-- The request the effect accepts. -/
def accepts : Effect → List Request
  | .accepted operation id => [(operation, id)]
  | _ => []

/-- The request the effect settles. -/
def settles : Effect → List Request
  | .answered operation id _ | .cancelled operation id => [(operation, id)]
  | _ => []

/-- The requests the effect sends a frame or starts a load for. -/
def serves : Effect → List RequestId
  | .outgoing served _ | .loading _ _ _ served => served
  | _ => []

/-- The effect sends a frame or starts a load. -/
def Sends : Effect → Prop
  | .outgoing _ _ | .loading _ _ _ _ => True
  | _ => False

/-- The effect neither accepts nor settles, and sends nothing. -/
def Quiet : Effect → Prop
  | .acknowledged | .delivered _ _ | .deliveredSocket _ | .telemetry _ => True
  | _ => False

/-- The effect neither accepts nor cancels a request, nor replies to a call, and sends nothing. -/
def Plain : Effect → Prop
  | .accepted _ _ | .cancelled _ _ | .answered _ _ (.ok (.reply _ _)) | .outgoing _ _ |
    .loading _ _ _ _ => False
  | _ => True

end Effect

/-- The requests accepted, in order. -/
def accepted (effects : List Effect) : List Request := effects.flatMap Effect.accepts

/-- The requests settled, in order. -/
def settled (effects : List Effect) : List Request := effects.flatMap Effect.settles

section
variable {effects effects' : List Effect}

@[simp] theorem accepted_nil : accepted [] = [] := rfl

@[simp] theorem settled_nil : settled [] = [] := rfl

@[simp] theorem accepted_append :
    accepted (effects ++ effects') = accepted effects ++ accepted effects' :=
  List.flatMap_append

@[simp] theorem settled_append : settled (effects ++ effects') = settled effects ++ settled effects' :=
  List.flatMap_append

@[simp] theorem accepted_cons (effect : Effect) :
    accepted (effect :: effects) = effect.accepts ++ accepted effects :=
  List.flatMap_cons

@[simp] theorem settled_cons (effect : Effect) :
    settled (effect :: effects) = effect.settles ++ settled effects :=
  List.flatMap_cons

theorem settled_of_quiet (h : ∀ effect ∈ effects, effect.Quiet) : settled effects = [] := by
  refine List.flatMap_eq_nil_iff.mpr fun effect hm => ?_
  cases effect with
  | answered operation id result => exact (h _ hm).elim
  | cancelled operation id => exact (h _ hm).elim
  | _ => rfl

theorem plain_of_quiet {effect : Effect} (h : effect.Quiet) : effect.Plain := by
  cases effect with
  | accepted | answered | cancelled | outgoing | loading => exact h.elim
  | _ => trivial

theorem quiet_of_report {effect : Effect} (h : effect.IsReport) : effect.Quiet := by
  cases effect with
  | delivered | deliveredSocket | telemetry => trivial
  | _ => exact h.elim

theorem settled_answers (operation : ClientOperation) (ids : List RequestId)
    (result : Except ClientError Success) :
    settled (ids.map fun id => .answered operation id result) = ids.map (Prod.mk operation) := by
  simp only [settled, List.flatMap_map, Effect.settles]
  exact List.flatMap_pure_eq_map ..

theorem settled_leaveAnswers (pending : Option PendingLeave) (result : Except ClientError Success) :
    settled (leaveAnswers pending result) = leaveOwed pending := by
  cases pending with
  | none => rfl
  | some leave =>
    simp only [leaveAnswers, leaveOwed, Option.elim_some, PendingLeave.owed]
    split <;> rfl

end

theorem settled_sent (served : List RequestId) (frame : Frame) (events : List TelemetryEvent) :
    settled (.outgoing served frame :: events.map .telemetry) = [] := by
  rw [settled_cons, settled, List.flatMap_map]
  exact List.flatMap_eq_nil_iff.mpr fun event _ => rfl

/-- Where the driver holds a request: in the record of a topic, or under a reference. -/
inductive Place where
  | record (topic : Topic)
  | reference (reference : Reference)

theorem leaveOwed_le (deferred : Option PendingLeave) (x : Request) :
    (leaveOwed deferred).count x ≤ (leaveHeld deferred).count x := by
  cases deferred with
  | none => exact Nat.le_refl _
  | some leave =>
    simp only [leaveOwed, leaveHeld, Option.elim_some, PendingLeave.owed, PendingLeave.held]
    split
    · exact Nat.le_refl _
    · exact Nat.zero_le _

namespace Driver

/-- The requests the driver holds, as `channel` and `leave` have them, once for each place. -/
def tally (channel : ChannelRecord → List Request) (leave : PendingLeave → List Request) (d : Driver) :
    List Request :=
  (d.state.channels.toList.flatMap fun entry => channel entry.2) ++
    (d.state.pendingCalls.toList.flatMap fun entry => entry.2.owed) ++
    (d.state.pendingPings.toList.flatMap fun entry => entry.2.owed) ++
    d.state.pendingLeaves.toList.flatMap fun entry => leave entry.2

/-- The requests the driver holds at one place. -/
def tallyAt (channel : ChannelRecord → List Request) (leave : PendingLeave → List Request) (d : Driver) :
    Place → List Request
  | .record topic => (d.record topic).elim [] channel
  | .reference reference =>
    (d.state.pendingCalls[reference]?).elim [] PendingCall.owed ++
      (d.state.pendingPings[reference]?).elim [] PendingPing.owed ++
      (d.state.pendingLeaves[reference]?).elim [] leave

/-- The requests whose responses the driver holds. -/
def owed (d : Driver) : List Request := d.tally ChannelRecord.owed PendingLeave.owed

/-- The requests the driver holds. -/
def held (d : Driver) : List Request := d.tally ChannelRecord.held PendingLeave.held

def owedAt (d : Driver) (place : Place) : List Request :=
  d.tallyAt ChannelRecord.owed PendingLeave.owed place

def heldAt (d : Driver) (place : Place) : List Request :=
  d.tallyAt ChannelRecord.held PendingLeave.held place

/-- How often a table holds a request. -/
def due {κ α : Type} (f : α → List Request) (x : Request) (_ : κ) (a : α) : Nat :=
  (f a).count x

theorem count_entries {κ α : Type} [Ord κ] [Std.TransOrd κ] (f : α → List Request) (m : Table κ α) (x : Request) :
    (m.toList.flatMap fun entry => f entry.2).count x = Table.total (due f x) m :=
  List.count_flatMap

theorem count_tally (channel : ChannelRecord → List Request) (leave : PendingLeave → List Request)
    (d : Driver) (x : Request) :
    (d.tally channel leave).count x =
      Table.total (due channel x) d.state.channels +
        Table.total (due PendingCall.owed x) d.state.pendingCalls +
        Table.total (due PendingPing.owed x) d.state.pendingPings +
        Table.total (due leave x) d.state.pendingLeaves := by
  simp only [tally, List.count_append, count_entries]

theorem count_owed (d : Driver) (x : Request) :
    d.owed.count x =
      Table.total (due ChannelRecord.owed x) d.state.channels +
        Table.total (due PendingCall.owed x) d.state.pendingCalls +
        Table.total (due PendingPing.owed x) d.state.pendingPings +
        Table.total (due PendingLeave.owed x) d.state.pendingLeaves :=
  count_tally ..

theorem count_held (d : Driver) (x : Request) :
    d.held.count x =
      Table.total (due ChannelRecord.held x) d.state.channels +
        Table.total (due PendingCall.owed x) d.state.pendingCalls +
        Table.total (due PendingPing.owed x) d.state.pendingPings +
        Table.total (due PendingLeave.held x) d.state.pendingLeaves :=
  count_tally ..

/-- The references that something waits for were handed out. -/
structure Listed (d : Driver) : Prop where
  calls : ∀ r : Reference, r ∈ d.state.pendingCalls → d.state.protocol.Issued r
  pings : ∀ r : Reference, r ∈ d.state.pendingPings → d.state.protocol.Issued r
  leaves : ∀ r : Reference, r ∈ d.state.pendingLeaves → d.state.protocol.Issued r

/-- References are new from `d` to `d'`. -/
def New (d d' : Driver) : Prop :=
  d.state.protocol.Numbered ∧ d'.state.protocol.allocated < 2 ^ 64 ∧ d.Listed

/-- The effect sends a frame or starts a load, for requests that are held or in `hand`. -/
def Serves (d : Driver) (hand : List Request) (effect : Effect) : Prop :=
  effect.Sends ∧ ∀ id ∈ effect.serves, ∃ x : Request, x.2 = id ∧ (x ∈ d.held ∨ x ∈ hand)

/-- What becomes of the requests from `d` to `d'`, when those of `hand` are in hand and the
responses of those `given`. An insertion under a reference in use displaces a request, so
nothing is lost only as long as references are new. -/
structure Honored (L : Effect → Prop) (given hand : List Request) (d d' : Driver)
    (effects : List Effect) : Prop where
  moved : d.Moved d'
  atMost : ∀ x, d'.owed.count x + (settled effects).count x ≤ d.owed.count x + given.count x
  atLeast : d.New d' → ∀ x, d.owed.count x + given.count x ≤
    d'.owed.count x + (settled effects).count x
  places : ∀ x, d'.held.count x ≤ d.held.count x + hand.count x
  records : ∀ t x, x ∈ d'.heldAt (.record t) → x ∈ d.heldAt (.record t) ∨ x ∈ hand
  references : ∀ r x, x ∈ d'.heldAt (.reference r) → x ∈ d.heldAt (.reference r) ∨
    (x ∈ hand ∨ ∃ t, x ∈ d.heldAt (.record t)) ∧
      ∃ served frame, .outgoing served frame ∈ effects ∧ x.2 ∈ served ∧ frame.reference = some r
  listed : d.New d' → d'.Listed
  kinds : ∀ effect ∈ effects, effect.Plain ∨ L effect ∨ d.Serves hand effect
  calls : d.New d' → ∀ (r : Reference) (call : PendingCall), d.state.pendingCalls[r]? = some call →
    d'.state.pendingCalls[r]? = some call ∨
      .answered .call call.id (.error (.interrupted .call)) ∈ effects ∨ ∃ effect ∈ effects, L effect

/-- From `d` to `d'` the responses held, and those `given`, stay held or are settled; the
requests of `hand` are in hand. -/
def HonorsWith (L : Effect → Prop) (given hand : List Request) (d d' : Driver) : Prop :=
  ∃ effects, d'.trace = d.trace ++ effects ∧ Honored L given hand d d' effects

/-- Each request in hand still has its response. -/
abbrev Honors (L : Effect → Prop) (given : List Request) (d d' : Driver) : Prop :=
  HonorsWith L given given d d'

section
variable {L : Effect → Prop} {given given' hand hand' : List Request} {d d' d'' : Driver}
  {effects effects' : List Effect}

theorem Listed.of_tables (h : d.Listed)
    (hgrows : d.state.protocol.allocated ≤ d'.state.protocol.allocated)
    (hc : d'.state.pendingCalls = d.state.pendingCalls)
    (hp : d'.state.pendingPings = d.state.pendingPings)
    (hl : d'.state.pendingLeaves = d.state.pendingLeaves) : d'.Listed :=
  ⟨fun r hr => (h.calls r (hc ▸ hr)).mono hgrows, fun r hr => (h.pings r (hp ▸ hr)).mono hgrows,
    fun r hr => (h.leaves r (hl ▸ hr)).mono hgrows⟩

theorem heldAt_of_record {topic : Topic} (h : d'.record topic = d.record topic) :
    d'.heldAt (.record topic) = d.heldAt (.record topic) := by
  simp only [heldAt, tallyAt, h]

theorem heldAt_of_channels (h : d'.state.channels = d.state.channels) (topic : Topic) :
    d'.heldAt (.record topic) = d.heldAt (.record topic) :=
  heldAt_of_record (by rw [record, h, record])

theorem heldAt_of_tables (hc : d'.state.pendingCalls = d.state.pendingCalls)
    (hp : d'.state.pendingPings = d.state.pendingPings)
    (hl : d'.state.pendingLeaves = d.state.pendingLeaves) (r : Reference) :
    d'.heldAt (.reference r) = d.heldAt (.reference r) := by
  simp only [heldAt, tallyAt, hc, hp, hl]

theorem Serves.mono {effect : Effect} (h : d.Serves hand effect)
    (himp : ∀ x, x ∈ d.held ∨ x ∈ hand → x ∈ d'.held ∨ x ∈ hand') : d'.Serves hand' effect := by
  refine ⟨h.1, fun id hm => ?_⟩
  obtain ⟨x, he, hx⟩ := h.2 id hm
  exact ⟨x, he, himp x hx⟩

/-- Two stretches, one after the other: what the first one settles it does not hand on, and what the
second is given it had in hand or held. -/
theorem Honored.trans (h : Honored L given hand d d' effects)
    (h' : Honored L given' hand' d' d'' effects') :
    Honored L (given ++ given') (hand ++ hand') d d'' (effects ++ effects') := by
  have hsplit : d.New d'' → d.New d' ∧ d'.New d'' := by
    rintro ⟨hn, hb, hl⟩
    have hb' := Nat.lt_of_le_of_lt h'.moved.grows hb
    exact ⟨⟨hn, hb', hl⟩, hn.moves h.moved hb', hb, h.listed ⟨hn, hb', hl⟩⟩
  have hrecord : ∀ t x, x ∈ d'.heldAt (.record t) ∨ x ∈ hand' →
      x ∈ d.heldAt (.record t) ∨ x ∈ hand ++ hand' := by
    rintro t x (hm | hm)
    · exact (h.records t x hm).imp_right (List.mem_append_left _)
    · exact .inr (List.mem_append_right _ hm)
  constructor
  case moved => exact h.moved.trans h'.moved
  case atMost =>
    intro x
    have hx := h.atMost x
    have hx' := h'.atMost x
    simp only [settled_append, List.count_append]
    omega
  case atLeast =>
    intro hnew x
    have hx := h.atLeast (hsplit hnew).1 x
    have hx' := h'.atLeast (hsplit hnew).2 x
    simp only [settled_append, List.count_append]
    omega
  case places =>
    intro x
    have hx := h.places x
    have hx' := h'.places x
    rw [List.count_append]
    omega
  case records => exact fun t x hm => hrecord t x (h'.records t x hm)
  case references =>
    intro r x hm
    rcases h'.references r x hm with hm | ⟨hsource, served, frame, he, hrest⟩
    · rcases h.references r x hm with hm | ⟨hsource, served, frame, he, hrest⟩
      · exact .inl hm
      · exact .inr ⟨hsource.imp_left (List.mem_append_left _), served, frame, List.mem_append_left _ he, hrest⟩
    · refine .inr ⟨?_, served, frame, List.mem_append_right _ he, hrest⟩
      rcases hsource with hx | ⟨t, hx⟩
      · exact .inl (List.mem_append_right _ hx)
      · exact (hrecord t x (.inl hx)).symm.imp_right fun hx => ⟨t, hx⟩
  case listed => exact fun hnew => h'.listed (hsplit hnew).2
  case kinds =>
    intro effect hm
    rcases List.mem_append.mp hm with hm | hm
    · exact (h.kinds effect hm).imp_right (.imp_right fun hs => hs.mono fun x hx =>
        hx.imp_right (List.mem_append_left _))
    · refine (h'.kinds effect hm).imp_right (.imp_right fun hs => hs.mono fun x hx => ?_)
      rcases hx with hx | hx
      · have hle := h.places x
        have hpos := List.count_pos_iff.mpr hx
        by_cases hd : x ∈ d.held
        · exact .inl hd
        · rw [List.count_eq_zero_of_not_mem hd] at hle
          exact .inr (List.mem_append_left _ (List.count_pos_iff.mp (by omega)))
      · exact .inr (List.mem_append_right _ hx)
  case calls =>
    intro hnew r call hc
    rcases h.calls (hsplit hnew).1 r call hc with hc | ha | ⟨effect, hm, hl⟩
    · rcases h'.calls (hsplit hnew).2 r call hc with hc | ha | ⟨effect, hm, hl⟩
      · exact .inl hc
      · exact .inr (.inl (List.mem_append_right _ ha))
      · exact .inr (.inr ⟨effect, List.mem_append_right _ hm, hl⟩)
    · exact .inr (.inl (List.mem_append_left _ ha))
    · exact .inr (.inr ⟨effect, List.mem_append_left _ hm, hl⟩)

theorem HonorsWith.trans (h : HonorsWith L given hand d d') (h' : HonorsWith L given' hand' d' d'') :
    HonorsWith L (given ++ given') (hand ++ hand') d d'' := by
  obtain ⟨effects, ht, h⟩ := h
  obtain ⟨effects', ht', h'⟩ := h'
  exact ⟨effects ++ effects', by rw [ht', ht, List.append_assoc], h.trans h'⟩

/-! ### What leaves the tables alone

A handler that emits reports, or rewrites what records say of themselves, honors its requests at
once. -/

/-- What changes records only. -/
theorem Honors.of_channels (hm : d.Moved d')
    (hc : d'.state.pendingCalls = d.state.pendingCalls)
    (hp : d'.state.pendingPings = d.state.pendingPings)
    (hl : d'.state.pendingLeaves = d.state.pendingLeaves) (ht : d'.trace = d.trace ++ effects)
    (hkinds : ∀ effect ∈ effects, effect.Plain ∨ L effect ∨ d.Serves given effect)
    (hcount : ∀ x, Table.total (due ChannelRecord.owed x) d'.state.channels + (settled effects).count x =
      Table.total (due ChannelRecord.owed x) d.state.channels + given.count x)
    (hplaces : ∀ x, Table.total (due ChannelRecord.held x) d'.state.channels ≤
      Table.total (due ChannelRecord.held x) d.state.channels + given.count x)
    (hrecords : ∀ t x, x ∈ d'.heldAt (.record t) → x ∈ d.heldAt (.record t) ∨ x ∈ given) :
    Honors L given d d' := by
  refine ⟨effects, ht, hm, fun x => ?_, fun _ x => ?_, fun x => ?_, hrecords,
    fun r x hx => .inl (heldAt_of_tables hc hp hl r ▸ hx), fun hnew => ?_, hkinds,
    fun _ r call hr => .inl (by rw [hc]; exact hr)⟩
  · have hx := hcount x
    rw [count_owed, count_owed, hc, hp, hl]
    omega
  · have hx := hcount x
    rw [count_owed, count_owed, hc, hp, hl]
    omega
  · have hx := hplaces x
    rw [count_held, count_held, hc, hp, hl]
    omega
  · obtain ⟨-, -, hlisted⟩ := hnew
    exact hlisted.of_tables hm.grows hc hp hl

/-- What changes nothing that holds requests, and settles those in hand. -/
theorem Honors.of_settle (hm : d.Moved d') (hch : d'.state.channels = d.state.channels)
    (hc : d'.state.pendingCalls = d.state.pendingCalls)
    (hp : d'.state.pendingPings = d.state.pendingPings)
    (hl : d'.state.pendingLeaves = d.state.pendingLeaves) (ht : d'.trace = d.trace ++ effects)
    (hkinds : ∀ effect ∈ effects, effect.Plain ∨ L effect ∨ d.Serves given effect)
    (hs : settled effects = given) :
    Honors L given d d' := by
  refine .of_channels hm hc hp hl ht hkinds (fun x => by rw [hch, hs]) (fun x => ?_) fun t x hx => .inl ?_
  · rw [hch]
    exact Nat.le_add_right ..
  · rwa [heldAt_of_channels hch] at hx

/-- What changes nothing that holds requests, and settles none. -/
theorem Honors.of_quiet (hm : d.Moved d') (hch : d'.state.channels = d.state.channels)
    (hc : d'.state.pendingCalls = d.state.pendingCalls)
    (hp : d'.state.pendingPings = d.state.pendingPings)
    (hl : d'.state.pendingLeaves = d.state.pendingLeaves) (he : d.Emits Effect.Quiet d') :
    Honors L [] d d' := by
  obtain ⟨effects, ht, hquiet⟩ := he
  exact .of_settle hm hch hc hp hl ht (fun effect hm => .inl (plain_of_quiet (hquiet effect hm)))
    (settled_of_quiet hquiet)

theorem Honors.refl (L : Effect → Prop) (d : Driver) : Honors L [] d d :=
  .of_quiet .refl rfl rfl rfl rfl (.refl _ d)

/-- What writes one record. -/
theorem Honors.of_write {topic : Topic} {channel channel' : ChannelRecord}
    (hr : d.record topic = some channel) (hm : d.Moved d')
    (hch : d'.state.channels = d.state.channels.insert topic channel')
    (hc : d'.state.pendingCalls = d.state.pendingCalls)
    (hp : d'.state.pendingPings = d.state.pendingPings)
    (hl : d'.state.pendingLeaves = d.state.pendingLeaves) (ht : d'.trace = d.trace ++ effects)
    (hkinds : ∀ effect ∈ effects, effect.Plain ∨ L effect ∨ d.Serves given effect)
    (hcount : ∀ x, channel'.owed.count x + (settled effects).count x =
      channel.owed.count x + given.count x)
    (hplaces : ∀ x, channel'.held.count x ≤ channel.held.count x + given.count x) :
    Honors L given d d' := by
  have hlookup : d.state.channels[topic]? = some channel := hr
  refine .of_channels hm hc hp hl ht hkinds (fun x => ?_) (fun x => ?_) fun t x hx => ?_
  · have hx := hcount x
    have hinsert := Table.total_insert (due ChannelRecord.owed x) d.state.channels topic channel'
    simp only [Table.shareAt, hlookup, Option.elim_some, due] at hinsert
    rw [hch]
    omega
  · have hx := hplaces x
    have hinsert := Table.total_insert (due ChannelRecord.held x) d.state.channels topic channel'
    simp only [Table.shareAt, hlookup, Option.elim_some, due] at hinsert
    rw [hch]
    omega
  · have hrecord : d'.record t = if t = topic then some channel' else d.record t := by
      rw [record, hch, Table.lookup_insert]
      rfl
    by_cases he : t = topic
    · subst he
      rw [if_pos rfl] at hrecord
      simp only [heldAt, tallyAt, hrecord, hr, Option.elim_some] at hx ⊢
      have hpos := List.count_pos_iff.mpr hx
      have hle := hplaces x
      by_cases hin : x ∈ channel.held
      · exact .inl hin
      · rw [List.count_eq_zero_of_not_mem hin] at hle
        exact .inr (List.count_pos_iff.mp (by omega))
    · rw [if_neg he] at hrecord
      exact .inl (heldAt_of_record hrecord ▸ hx)

/-! ### Sending

`Tracks` is the one way a request comes under a reference: it was free, and gets the next one. -/

/-- From `d` to `d'` an entry was put under the next reference, for the request `x`; the list is
what it holds the response of. -/
inductive Tracks (d d' : Driver) : Request → List Request → Prop where
  | call (call : PendingCall)
      (hc : d'.state.pendingCalls = d.state.pendingCalls.insert d.state.protocol.nextText call)
      (hp : d'.state.pendingPings = d.state.pendingPings)
      (hl : d'.state.pendingLeaves = d.state.pendingLeaves) : Tracks d d' (.call, call.id) call.owed
  | ping (ping : PendingPing) (hc : d'.state.pendingCalls = d.state.pendingCalls)
      (hp : d'.state.pendingPings = d.state.pendingPings.insert d.state.protocol.nextText ping)
      (hl : d'.state.pendingLeaves = d.state.pendingLeaves) : Tracks d d' (.ping, ping.id) ping.owed
  | leave (leave : PendingLeave) (hc : d'.state.pendingCalls = d.state.pendingCalls)
      (hp : d'.state.pendingPings = d.state.pendingPings)
      (hl : d'.state.pendingLeaves = d.state.pendingLeaves.insert d.state.protocol.nextText leave) :
    Tracks d d' (.leave, leave.id) leave.owed

variable {x : Request}

/-- Nothing waits for the reference. -/
structure Free (d : Driver) (r : Reference) : Prop where
  calls : r ∉ d.state.pendingCalls
  pings : r ∉ d.state.pendingPings
  leaves : r ∉ d.state.pendingLeaves

theorem New.free (h : d.New d') (ha : d'.state.protocol.allocated = d.state.protocol.allocated + 1) :
    d.Free d.state.protocol.nextText := by
  obtain ⟨hn, hb, hl⟩ := h
  have hnot := Protocol.not_issued_nextText hn.unwrapped (by omega)
  exact ⟨fun hm => hnot (hl.calls _ hm), fun hm => hnot (hl.pings _ hm), fun hm => hnot (hl.leaves _ hm)⟩

/-- An entry adds what it is owed, less what the entry it displaces was. -/
theorem Tracks.count (h : d.Tracks d' x given) (hch : d'.state.channels = d.state.channels)
    (y : Request) :
    ∃ displaced, d'.owed.count y + displaced = d.owed.count y + given.count y ∧
      (d.Free d.state.protocol.nextText → displaced = 0) := by
  cases h with
  | call call hc hp hl =>
    have hi := Table.total_insert (due PendingCall.owed y) d.state.pendingCalls
      d.state.protocol.nextText call
    refine ⟨_, ?_, fun hfree => Table.shareAt_of_not_mem (due PendingCall.owed y) hfree.calls⟩
    simp only [count_owed, hch, hc, hp, hl, due] at hi ⊢
    omega
  | ping ping hc hp hl =>
    have hi := Table.total_insert (due PendingPing.owed y) d.state.pendingPings
      d.state.protocol.nextText ping
    refine ⟨_, ?_, fun hfree => Table.shareAt_of_not_mem (due PendingPing.owed y) hfree.pings⟩
    simp only [count_owed, hch, hc, hp, hl, due] at hi ⊢
    omega
  | leave leave hc hp hl =>
    have hi := Table.total_insert (due PendingLeave.owed y) d.state.pendingLeaves
      d.state.protocol.nextText leave
    refine ⟨_, ?_, fun hfree => Table.shareAt_of_not_mem (due PendingLeave.owed y) hfree.leaves⟩
    simp only [count_owed, hch, hc, hp, hl, due] at hi ⊢
    omega

theorem Tracks.places (h : d.Tracks d' x given) (hch : d'.state.channels = d.state.channels)
    (y : Request) : d'.held.count y ≤ d.held.count y + [x].count y := by
  cases h with
  | call call hc hp hl =>
    have hi := Table.total_insert (due PendingCall.owed y) d.state.pendingCalls
      d.state.protocol.nextText call
    simp only [count_held, hch, hc, hp, hl, due, PendingCall.owed] at hi ⊢
    omega
  | ping ping hc hp hl =>
    have hi := Table.total_insert (due PendingPing.owed y) d.state.pendingPings
      d.state.protocol.nextText ping
    simp only [count_held, hch, hc, hp, hl, due, PendingPing.owed] at hi ⊢
    omega
  | leave leave hc hp hl =>
    have hi := Table.total_insert (due PendingLeave.held y) d.state.pendingLeaves
      d.state.protocol.nextText leave
    simp only [count_held, hch, hc, hp, hl, due, PendingLeave.held] at hi ⊢
    omega

theorem Tracks.listed (h : d.Tracks d' x given) (hl : d.Listed)
    (hgrows : d.state.protocol.allocated ≤ d'.state.protocol.allocated)
    (hi : d'.state.protocol.Issued d.state.protocol.nextText) : d'.Listed := by
  have hkey : ∀ {α : Type} {m m' : Table Reference α} {a : α}, m' = m.insert d.state.protocol.nextText a →
      (∀ r : Reference, r ∈ m → d.state.protocol.Issued r) →
      ∀ r : Reference, r ∈ m' → d'.state.protocol.Issued r := by
    rintro α m m' a rfl hm r hr
    rcases Std.ExtTreeMap.mem_insert.mp hr with he | hr
    · exact Std.LawfulEqOrd.eq_of_compare he ▸ hi
    · exact (hm r hr).mono hgrows
  have hold : ∀ {α : Type} {m m' : Table Reference α}, m' = m →
      (∀ r : Reference, r ∈ m → d.state.protocol.Issued r) →
      ∀ r : Reference, r ∈ m' → d'.state.protocol.Issued r := by
    rintro α m m' rfl hm r hr
    exact (hm r hr).mono hgrows
  cases h with
  | call call hc hp hl' => exact ⟨hkey hc hl.calls, hold hp hl.pings, hold hl' hl.leaves⟩
  | ping ping hc hp hl' => exact ⟨hold hc hl.calls, hkey hp hl.pings, hold hl' hl.leaves⟩
  | leave leave hc hp hl' => exact ⟨hold hc hl.calls, hold hp hl.pings, hkey hl' hl.leaves⟩

/-- An entry of the table is what was there, or what was put there. -/
theorem mem_insert_held {α : Type} {m : Table Reference α} {f : α → List Request} {r r' : Reference} {a : α}
    {y : Request} (h : y ∈ ((m.insert r a)[r']?).elim [] f) :
    y ∈ (m[r']?).elim [] f ∨ r' = r ∧ y ∈ f a := by
  rw [Table.lookup_insert] at h
  split at h
  · exact .inr ⟨by assumption, h⟩
  · exact .inl h

/-- Under the new reference there is the request, and under the others what was there. -/
theorem Tracks.references (h : d.Tracks d' x given) {r : Reference} {y : Request}
    (hy : y ∈ d'.heldAt (.reference r)) :
    y ∈ d.heldAt (.reference r) ∨ r = d.state.protocol.nextText ∧ y = x := by
  simp only [heldAt, tallyAt, List.mem_append] at hy ⊢
  cases h with
  | call call hc hp hl =>
    rw [hc, hp, hl] at hy
    rcases hy with (hy | hy) | hy
    · rcases mem_insert_held hy with hy | ⟨hr, hy⟩
      · exact .inl (.inl (.inl hy))
      · exact .inr ⟨hr, List.mem_singleton.mp hy⟩
    · exact .inl (.inl (.inr hy))
    · exact .inl (.inr hy)
  | ping ping hc hp hl =>
    rw [hc, hp, hl] at hy
    rcases hy with (hy | hy) | hy
    · exact .inl (.inl (.inl hy))
    · rcases mem_insert_held hy with hy | ⟨hr, hy⟩
      · exact .inl (.inl (.inr hy))
      · exact .inr ⟨hr, List.mem_singleton.mp hy⟩
    · exact .inl (.inr hy)
  | leave leave hc hp hl =>
    rw [hc, hp, hl] at hy
    rcases hy with (hy | hy) | hy
    · exact .inl (.inl (.inl hy))
    · exact .inl (.inl (.inr hy))
    · rcases mem_insert_held hy with hy | ⟨hr, hy⟩
      · exact .inl (.inr hy)
      · exact .inr ⟨hr, List.mem_singleton.mp hy⟩

theorem Tracks.calls (h : d.Tracks d' x given) (hf : d.Free d.state.protocol.nextText) {r : Reference}
    {call : PendingCall} (hr : d.state.pendingCalls[r]? = some call) :
    d'.state.pendingCalls[r]? = some call := by
  cases h with
  | call call' hc hp hl =>
    rw [hc, Table.lookup_insert, if_neg, hr]
    rintro rfl
    exact hf.calls (Table.mem_of_lookup hr)
  | ping ping hc hp hl => rw [hc, hr]
  | leave leave hc hp hl => rw [hc, hr]

/-- **A frame is sent for a request that is kept from then on.** -/
theorem HonorsWith.of_send (h : d.Tracks d' x given) (hm : d.Moved d')
    (ha : d'.state.protocol.allocated = d.state.protocol.allocated + 1)
    (hch : d'.state.channels = d.state.channels) (ht : d'.trace = d.trace) (env : Env)
    {frame : Frame} (hr : frame.reference = some d.state.protocol.nextText) :
    HonorsWith L given [x] d (d'.sendFrame env [x.2] frame).1 := by
  obtain ⟨events, htrace⟩ := sendFrame_trace env d' [x.2] frame
  have hstate := sendFrame_state env d' [x.2] frame
  have hsettled := settled_sent [x.2] frame events
  have hnew : d.New (d'.sendFrame env [x.2] frame).1 → d.New d' := fun ⟨hn, hb, hl⟩ =>
    ⟨hn, by rw [← hstate]; exact hb, hl⟩
  have howed : (d'.sendFrame env [x.2] frame).1.owed = d'.owed := by simp only [owed, tally, hstate]
  have hheld : (d'.sendFrame env [x.2] frame).1.held = d'.held := by simp only [held, tally, hstate]
  have hat : ∀ place, (d'.sendFrame env [x.2] frame).1.heldAt place = d'.heldAt place := by
    rintro (topic | reference) <;> simp only [heldAt, tallyAt, record, hstate]
  refine ⟨_, by rw [htrace, ht], by rw [Moved, hstate]; exact hm, fun y => ?_, fun hn y => ?_, fun y => ?_,
    fun t y hy => .inl ?_, fun r y hy => ?_, fun hn => ?_,
    fun effect hm => ?_, fun hn r call hcall => .inl ?_⟩
  · obtain ⟨displaced, hcount, -⟩ := h.count hch y
    rw [hsettled, howed]
    simp only [List.count_nil]
    omega
  · obtain ⟨displaced, hcount, hzero⟩ := h.count hch y
    have := hzero ((hnew hn).free ha)
    rw [hsettled, howed]
    simp only [List.count_nil]
    omega
  · rw [hheld]
    exact h.places hch y
  · rwa [hat, heldAt_of_channels hch] at hy
  · rw [hat] at hy
    rcases h.references hy with hy | ⟨rfl, rfl⟩
    · exact .inl hy
    · exact .inr ⟨.inl (List.mem_singleton_self _), _, frame, List.mem_cons_self,
        List.mem_singleton_self _, hr⟩
  · obtain ⟨hn, hb, hl⟩ := hnew hn
    have hlisted := h.listed hl hm.grows (Protocol.issued_nextText hn.unwrapped ha hb)
    exact hlisted.of_tables (Nat.le_of_eq (by rw [hstate])) (by rw [hstate]) (by rw [hstate])
      (by rw [hstate])
  · rcases List.mem_cons.mp hm with rfl | hm
    · refine .inr (.inr ⟨trivial, fun id hid => ⟨x, ?_, .inr (List.mem_singleton_self x)⟩⟩)
      exact (List.mem_singleton.mp hid).symm
    · obtain ⟨event, -, rfl⟩ := List.mem_map.mp hm
      exact .inl trivial
  · rw [hstate]
    exact h.calls ((hnew hn).free ha) hcall

/-! ### Settling

`Releases` is the way back: the entry is taken out, and its request is settled by an effect of the
same step. -/

/-- From `d` to `d'` the entry under a reference was taken out, or lost its response. -/
inductive Releases (d d' : Driver) (r : Reference) : List Request → Prop where
  | call (call : PendingCall) (hr : d.state.pendingCalls[r]? = some call)
      (hc : d'.state.pendingCalls = d.state.pendingCalls.erase r)
      (hp : d'.state.pendingPings = d.state.pendingPings)
      (hl : d'.state.pendingLeaves = d.state.pendingLeaves) : Releases d d' r call.owed
  | ping (ping : PendingPing) (hr : d.state.pendingPings[r]? = some ping)
      (hc : d'.state.pendingCalls = d.state.pendingCalls)
      (hp : d'.state.pendingPings = d.state.pendingPings.erase r)
      (hl : d'.state.pendingLeaves = d.state.pendingLeaves) : Releases d d' r ping.owed
  | leave (leave : PendingLeave) (hr : d.state.pendingLeaves[r]? = some leave)
      (hc : d'.state.pendingCalls = d.state.pendingCalls)
      (hp : d'.state.pendingPings = d.state.pendingPings)
      (hl : d'.state.pendingLeaves = d.state.pendingLeaves.erase r) : Releases d d' r leave.owed
  | mute (leave : PendingLeave) (hr : d.state.pendingLeaves[r]? = some leave)
      (hc : d'.state.pendingCalls = d.state.pendingCalls)
      (hp : d'.state.pendingPings = d.state.pendingPings)
      (hl : d'.state.pendingLeaves =
        d.state.pendingLeaves.insert r { leave with response := false }) : Releases d d' r leave.owed

variable {r : Reference} {released : List Request}

theorem Releases.count (h : d.Releases d' r released) (hch : d'.state.channels = d.state.channels)
    (x : Request) : d'.owed.count x + released.count x = d.owed.count x := by
  cases h with
  | call call hr hc hp hl =>
    have he := Table.total_erase (due PendingCall.owed x) d.state.pendingCalls r
    simp only [Table.shareAt, hr, Option.elim_some, due] at he
    simp only [count_owed, hch, hc, hp, hl]
    omega
  | ping ping hr hc hp hl =>
    have he := Table.total_erase (due PendingPing.owed x) d.state.pendingPings r
    simp only [Table.shareAt, hr, Option.elim_some, due] at he
    simp only [count_owed, hch, hc, hp, hl]
    omega
  | leave leave hr hc hp hl =>
    have he := Table.total_erase (due PendingLeave.owed x) d.state.pendingLeaves r
    simp only [Table.shareAt, hr, Option.elim_some, due] at he
    simp only [count_owed, hch, hc, hp, hl]
    omega
  | mute leave hr hc hp hl =>
    have hi := Table.total_insert (due PendingLeave.owed x) d.state.pendingLeaves r
      { leave with response := false }
    have hnone : ({ leave with response := false } : PendingLeave).owed.count x = 0 := rfl
    simp only [Table.shareAt, hr, Option.elim_some, due, hnone] at hi
    simp only [count_owed, hch, hc, hp, hl]
    omega

theorem Releases.places (h : d.Releases d' r released) (hch : d'.state.channels = d.state.channels)
    (x : Request) : d'.held.count x ≤ d.held.count x := by
  cases h with
  | call call hr hc hp hl =>
    have he := Table.total_erase (due PendingCall.owed x) d.state.pendingCalls r
    simp only [count_held, hch, hc, hp, hl]
    omega
  | ping ping hr hc hp hl =>
    have he := Table.total_erase (due PendingPing.owed x) d.state.pendingPings r
    simp only [count_held, hch, hc, hp, hl]
    omega
  | leave leave hr hc hp hl =>
    have he := Table.total_erase (due PendingLeave.held x) d.state.pendingLeaves r
    simp only [count_held, hch, hc, hp, hl]
    omega
  | mute leave hr hc hp hl =>
    have hsame := Table.total_insert_same (due PendingLeave.held x) hr
      (show due PendingLeave.held x r { leave with response := false } = _ from rfl)
    simp only [count_held, hch, hc, hp, hl, hsame]
    omega

theorem Releases.listed (h : d.Releases d' r released) (hl : d.Listed)
    (hgrows : d.state.protocol.allocated ≤ d'.state.protocol.allocated) : d'.Listed := by
  have hkey : ∀ {α : Type} {m m' : Table Reference α}, (∀ r : Reference, r ∈ m' → r ∈ m) →
      (∀ r : Reference, r ∈ m → d.state.protocol.Issued r) →
      ∀ r : Reference, r ∈ m' → d'.state.protocol.Issued r :=
    fun hsub hm r hr => (hm r (hsub r hr)).mono hgrows
  have herase : ∀ {α : Type} {m m' : Table Reference α}, m' = m.erase r →
      ∀ r : Reference, r ∈ m' → r ∈ m := by
    rintro α m m' rfl r' hr
    exact Std.ExtTreeMap.mem_of_mem_erase hr
  have hsame : ∀ {α : Type} {m m' : Table Reference α}, m' = m → ∀ r : Reference, r ∈ m' → r ∈ m := by
    rintro α m m' rfl r hr
    exact hr
  cases h with
  | call call hr hc hp hl' =>
    exact ⟨hkey (herase hc) hl.calls, hkey (hsame hp) hl.pings, hkey (hsame hl') hl.leaves⟩
  | ping ping hr hc hp hl' =>
    exact ⟨hkey (hsame hc) hl.calls, hkey (herase hp) hl.pings, hkey (hsame hl') hl.leaves⟩
  | leave leave hr hc hp hl' =>
    exact ⟨hkey (hsame hc) hl.calls, hkey (hsame hp) hl.pings, hkey (herase hl') hl.leaves⟩
  | mute leave hr hc hp hl' =>
    refine ⟨hkey (hsame hc) hl.calls, hkey (hsame hp) hl.pings, hkey (fun r' hr' => ?_) hl.leaves⟩
    rw [hl'] at hr'
    rcases Std.ExtTreeMap.mem_insert.mp hr' with he | hr'
    · exact Std.LawfulEqOrd.eq_of_compare he ▸ Table.mem_of_lookup hr
    · exact hr'

theorem mem_erase_held {α : Type} {m : Table Reference α} {f : α → List Request} {r r' : Reference}
    {y : Request} (h : y ∈ ((m.erase r)[r']?).elim [] f) : y ∈ (m[r']?).elim [] f := by
  rw [Table.lookup_erase] at h
  split at h
  · cases h
  · exact h

/-- Nothing comes under a reference when one is released. -/
theorem Releases.references (h : d.Releases d' r released) {r' : Reference} {y : Request}
    (hy : y ∈ d'.heldAt (.reference r')) : y ∈ d.heldAt (.reference r') := by
  simp only [heldAt, tallyAt, List.mem_append] at hy ⊢
  cases h with
  | call call hr hc hp hl =>
    rw [hc, hp, hl] at hy
    exact hy.imp_left (.imp_left mem_erase_held)
  | ping ping hr hc hp hl =>
    rw [hc, hp, hl] at hy
    exact hy.imp_left (.imp_right mem_erase_held)
  | leave leave hr hc hp hl =>
    rw [hc, hp, hl] at hy
    exact hy.imp_right mem_erase_held
  | mute leave hr hc hp hl =>
    rw [hc, hp, hl] at hy
    refine hy.imp_right fun hm => ?_
    rcases mem_insert_held hm with hold | ⟨rfl, hnew⟩
    · exact hold
    · rw [hr]
      exact hnew

/-- **An entry is released and its request settled.** -/
theorem Honors.of_release (h : d.Releases d' r released) (hm : d.Moved d')
    (hch : d'.state.channels = d.state.channels) (ht : d'.trace = d.trace ++ effects)
    (hsettled : settled effects = released)
    (hplain : ∀ effect ∈ effects, effect.Plain ∨ L effect)
    (hcalls : d'.state.pendingCalls = d.state.pendingCalls ∨ ∃ effect ∈ effects, L effect) :
    Honors L [] d d' := by
  refine ⟨effects, ht, hm, fun x => ?_, fun _ x => ?_, fun x => ?_, fun t x hx => .inl ?_,
    fun r' x hx => .inl (h.references hx), fun hn => ?_, fun effect he => (hplain effect he).imp_right .inl,
    fun _ r' call hc => ?_⟩
  · rw [hsettled, h.count hch x]
    exact Nat.le_refl _
  · rw [hsettled, h.count hch x]
    exact Nat.le_refl _
  · exact h.places hch x
  · rwa [heldAt_of_channels hch] at hx
  · obtain ⟨-, -, hl⟩ := hn
    exact h.listed hl hm.grows
  · rcases hcalls with hcalls | hcalls
    · exact .inl (by rw [hcalls]; exact hc)
    · exact .inr (.inr hcalls)

end

end Driver
end PhoenixChannel.Client
