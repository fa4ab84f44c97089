import PhoenixChannel.Runtime.History
import Mathlib.Data.List.Forall2

/-! Rejoining every inactive topic.

The topics are taken from a snapshot of the channel map, in whatever order it is iterated, and
rejoined one after another. Each rejoin replaces its own topic's entries and no others, so no
topic is lost, none is rejoined twice, and the order leaves no mark but on the references. -/
namespace PhoenixChannel.Runtime
open Library

namespace Protocol
variable {p p' : Protocol} {topic : Topic} {params : Value}

/-- The state is one of `Disconnected`, `Errored` and `Closed`. -/
def Inactive (p : Protocol) (topic : Topic) : Prop :=
  ∃ c : Channel, p.channels[topic]? = some c ∧ (c.state = .disconnected ∨ c.state = .errored ∨ c.state = .closed)

theorem not_active_iff {state : ChannelState} :
    ¬ state.active ↔ state = .disconnected ∨ state = .errored ∨ state = .closed := by
  cases state <;> simp [ChannelState.active]

/-- The topic is joining by the join that was returned, its only pending request. -/
structure Rejoined (p : Protocol) (outbound : Outbound) (topic : Topic) (params : Value) : Prop where
  frame : outbound.frame = ⟨some outbound.reference, some outbound.reference, topic, "phx_join", .json params⟩
  channel : p.channels[topic]? = some ⟨.joining, outbound.reference, params⟩
  pending : ∀ (r : Reference) (q : Pending), p.pending[r]? = some q ∧ q.topic? = some topic ↔
    r = outbound.reference ∧ q = .join topic

/-- From `p` to `p'` nothing changed but for the channels and the requests of some topics. -/
structure Beyond (p p' : Protocol) (topics : List Topic) : Prop where
  channels : ∀ t, t ∉ topics → p'.channels[t]? = p.channels[t]?
  pending : ∀ (r : Reference) (q : Pending), (∀ t ∈ topics, q.topic? ≠ some t) →
    (p'.pending[r]? = some q ↔ p.pending[r]? = some q)

theorem Beyond.refl (p : Protocol) : Beyond p p [] := ⟨fun _ _ => rfl, fun _ _ _ => Iff.rfl⟩

/-- What one rejoin leaves alone and what the others leave alone. -/
theorem Beyond.cons {p'' : Protocol} {topics : List Topic} (h : Beyond p p' [topic])
    (h' : Beyond p' p'' topics) : Beyond p p'' (topic :: topics) where
  channels t ht := by
    rw [List.mem_cons, not_or] at ht
    rw [h'.channels t ht.2, h.channels t (by simpa using ht.1)]
  pending r q hq := by
    rw [h'.pending r q fun t ht => hq t (List.mem_cons_of_mem _ ht),
      h.pending r q fun t ht => hq t (by simpa using Or.inl (List.mem_singleton.mp ht))]

/-- What was rejoined stays so while other topics are. -/
theorem Rejoined.beyond {outbound : Outbound} {topics : List Topic} (h : Rejoined p outbound topic params)
    (hb : Beyond p p' topics) (ht : topic ∉ topics) : Rejoined p' outbound topic params where
  frame := h.frame
  channel := by rw [hb.channels topic ht, h.channel]
  pending r q := by
    rw [← h.pending r q]
    refine and_congr_left fun hq => hb.pending r q fun t hm he => ht ?_
    rw [hq] at he
    exact Option.some.inj he ▸ hm

/-- Rejoining an inactive topic is joining it after its channel was discarded. -/
theorem rejoin_of_gone (hi : p.Inactive topic) :
    p.rejoin topic params = (p.discardChannel topic).2.join topic params ∧
      (p.discardChannel topic).2.channelState topic = none := by
  obtain ⟨c, hc, hstate⟩ := hi
  have hs : p.channelState topic = some c.state := by rw [channelState, hc]; rfl
  exact ⟨rejoin_of_inactive hs (not_active_iff.mpr hstate), by simp [channelState, discardChannel]⟩

theorem rejoin_allocated (hi : p.Inactive topic) : (p.rejoin topic params).2.allocated = p.allocated + 1 := by
  obtain ⟨heq, hgone⟩ := @rejoin_of_gone p topic params hi
  rw [heq, join_of_unknown hgone]
  rfl

/-- One rejoin. -/
theorem rejoin_rejoined (hn : p.Numbered) (hb : p.allocated + 1 < 2 ^ 64) (hi : p.Inactive topic) :
    ∃ outbound p', p.rejoin topic params = (.ok outbound, p') ∧
      Rejoined p' outbound topic params ∧ Beyond p p' [topic] := by
  obtain ⟨heq, hgone⟩ := @rejoin_of_gone p topic params hi
  have hfresh := hn.fresh hb
  have hlookup : ∀ r : Reference, ((p.discardChannel topic).2.pending.insert p.nextText (.join topic))[r]? =
      if r = p.nextText then some (.join topic)
      else p.pending[r]?.filter fun pending => pending.topic? != some topic := by
    intro r
    rw [Table.lookup_insert, discardChannel, Std.ExtTreeMap.getElem?_filter']
  rw [heq, join_of_unknown hgone]
  refine ⟨_, _, rfl, ⟨rfl, ?_, fun r q => ?_⟩, ⟨fun t ht => ?_, fun r q hq => ?_⟩⟩
  · simp [discardChannel, nextText]
  · show ((p.discardChannel topic).2.pending.insert p.nextText (.join topic))[r]? = some q ∧ _ ↔
      r = p.nextText ∧ _
    rw [hlookup r]
    split
    · rename_i hr
      subst hr
      refine ⟨fun h => ⟨rfl, (Option.some.inj h.1).symm⟩, fun h => ⟨by rw [h.2], by rw [h.2]; rfl⟩⟩
    · rename_i hr
      refine iff_of_false (fun h => ?_) fun h => hr h.1
      have hother := (Option.filter_eq_some_iff.mp h.1).2
      rw [h.2] at hother
      simp at hother
  · show ((p.discardChannel topic).2.channels.insert topic _)[t]? = _
    rw [Table.lookup_insert, if_neg (by simpa using ht), discardChannel, Table.lookup_erase,
      if_neg (by simpa using ht)]
  · show ((p.discardChannel topic).2.pending.insert p.nextText (.join topic))[r]? = some q ↔ _
    rw [hlookup r]
    have hne := hq topic List.mem_cons_self
    split
    · rename_i hr
      subst hr
      rw [Std.ExtTreeMap.getElem?_eq_none hfresh]
      refine iff_of_false (fun h => ?_) (Option.some_ne_none q).symm
      rw [← Option.some.inj h] at hne
      exact hne rfl
    · rw [Option.filter_eq_some_iff]
      exact and_iff_left (by simpa using hne)

/-- **Each listed topic is rejoined**, and nothing else changes. -/
theorem rejoinEach_rejoined {targets : List (Topic × Value)} (hn : p.Numbered)
    (hb : (p.rejoinEach targets).2.allocated < 2 ^ 64) (hnd : (targets.map Prod.fst).Nodup)
    (hi : ∀ target ∈ targets, p.Inactive target.1) :
    List.Forall₂ (fun outbound target => Rejoined (p.rejoinEach targets).2 outbound target.1 target.2)
      (p.rejoinEach targets).1 targets ∧
      Beyond p (p.rejoinEach targets).2 (targets.map Prod.fst) := by
  induction targets generalizing p with
  | nil => exact ⟨.nil, .refl p⟩
  | cons target rest ih =>
    obtain ⟨topic, params⟩ := target
    obtain ⟨htopic, hrest⟩ := List.nodup_cons.mp hnd
    rw [rejoinEach_cons] at hb ⊢
    have hinactive : p.Inactive topic := hi (topic, params) List.mem_cons_self
    have hlt := Nat.lt_of_le_of_lt (rejoinEach_grows (p.rejoin topic params).2 rest) hb
    have hn₁ := (clean_rejoin hn topic params hlt).numbered
    rw [rejoin_allocated hinactive] at hlt
    obtain ⟨outbound, p₁, hr, hone, hbeyond⟩ := @rejoin_rejoined p topic params hn hlt hinactive
    rw [hr] at hb hn₁ ⊢
    have hi₁ : ∀ target ∈ rest, p₁.Inactive target.1 := by
      intro target hm
      obtain ⟨c, hc, hstate⟩ := hi target (List.mem_cons_of_mem _ hm)
      refine ⟨c, ?_, hstate⟩
      rw [hbeyond.channels target.1 fun he => htopic (List.mem_map.mpr ⟨target, hm, List.mem_singleton.mp he⟩), hc]
    obtain ⟨hall, hothers⟩ := ih hn₁ hb hrest hi₁
    exact ⟨.cons (hone.beyond hothers htopic) hall, hbeyond.cons hothers⟩

end Protocol

/-! ### The parameters of the latest join

What is stored for a topic is what its latest join was given, as a rejoin stores what it is given
again. -/

/-- The parameters the call gave for a join of the topic that it started. A rejoin of all topics
gives none. -/
def Entry.given (e : Entry) (topic : Topic) : Option Value :=
  match e.op with
  | .join t params | .rejoin t params => if t = topic ∧ !e.outcome.sent.isEmpty then some params else none
  | _ => none

/-- The parameters of the most recent join of a topic. -/
def latestParams (log : List Entry) (topic : Topic) : Option Value :=
  log.foldl (fun latest e => (e.given topic).or latest) none

@[simp] theorem latestParams_append (log : List Entry) (e : Entry) (topic : Topic) :
    latestParams (log ++ [e]) topic = (e.given topic).or (latestParams log topic) := by
  simp [latestParams]

namespace Protocol
variable {p : Protocol}

/-- How a channel that a call leaves behind came by its parameters. -/
inductive Stores (p : Protocol) (op : Op) (topic : Topic) (params : Value) : Prop where
  | given (h : Entry.given ⟨op, (p.perform op).1⟩ topic = some params)
  | kept {c : Channel} (h : Entry.given ⟨op, (p.perform op).1⟩ topic = none) (before : p.channels[topic]? = some c)
      (same : c.params = params)

/-- A join stores its parameters for its topic, and no others. -/
theorem join_stores {topic t : Topic} {params : Value} {c' : Channel}
    (h : (p.join topic params).2.channels[t]? = some c') :
    (topic = t ∧ (returning (p.join topic params).1).sent.isEmpty = false ∧ c'.params = params) ∨
      (¬ (topic = t ∧ (returning (p.join topic params).1).sent.isEmpty = false) ∧ p.channels[t]? = some c') := by
  by_cases ha : (p.channelState topic).any ChannelState.active
  · rw [join_of_active ha] at h ⊢
    exact .inr ⟨fun he => Bool.noConfusion he.2, h⟩
  · rw [join_of_inactive ha] at h ⊢
    rw [Table.lookup_insert] at h
    by_cases ht : t = topic
    · rw [if_pos ht] at h
      cases h
      exact .inl ⟨ht.symm, rfl, rfl⟩
    · rw [if_neg ht] at h
      exact .inr ⟨fun he => ht he.1.symm, h⟩

/-- After a rejoin a channel has the parameters it was rejoined with, or those it had. -/
theorem rejoin_stores {topic t : Topic} {params : Value} {c' : Channel}
    (h : (p.rejoin topic params).2.channels[t]? = some c') :
    (topic = t ∧ (returning (p.rejoin topic params).1).sent.isEmpty = false ∧ c'.params = params) ∨
      (¬ (topic = t ∧ (returning (p.rejoin topic params).1).sent.isEmpty = false) ∧ p.channels[t]? = some c') := by
  cases hs : p.channelState topic with
  | none =>
    rw [rejoin_of_unknown hs] at h ⊢
    exact join_stores h
  | some state =>
    by_cases ha : state.active
    · rw [rejoin_of_active hs ha] at h ⊢
      exact .inr ⟨fun he => Bool.noConfusion he.2, h⟩
    · rw [rejoin_of_inactive hs ha] at h ⊢
      refine (join_stores h).imp_right fun ⟨hn, hc⟩ => ⟨hn, ?_⟩
      rw [discardChannel, Table.lookup_erase] at hc
      split at hc
      · cases hc
      · exact hc

/-- After several rejoins a channel has parameters that one of them was given, or those it had. -/
theorem rejoinEach_stores {targets : List (Topic × Value)} {t : Topic} {c' : Channel}
    (h : (p.rejoinEach targets).2.channels[t]? = some c') :
    (t, c'.params) ∈ targets ∨ p.channels[t]? = some c' := by
  induction targets generalizing p with
  | nil => exact .inr h
  | cons target rest ih =>
    rw [rejoinEach_cons] at h
    rcases ih h with hm | hc
    · exact .inl (List.mem_cons_of_mem _ hm)
    · rcases rejoin_stores hc with ⟨ht, -, hp⟩ | ⟨-, hc⟩
      · exact .inl (by rw [← ht, hp]; exact List.mem_cons_self)
      · exact .inr hc

/-- The snapshot has every inactive topic with its stored parameters. -/
theorem mem_inactive {order : List Topic} {t : Topic} {params : Value} :
    (t, params) ∈ p.inactive order ↔
      t ∈ order ∧ ∃ c : Channel, p.channels[t]? = some c ∧ ¬ c.state.active ∧ c.params = params := by
  simp only [inactive, List.mem_filterMap]
  constructor
  · rintro ⟨topic, ho, h⟩
    cases hc : p.channels[topic]? with
    | none =>
      rw [hc] at h
      cases h
    | some c =>
      rw [hc] at h
      dsimp only at h
      split at h
      · cases h
      · cases h
        exact ⟨ho, c, hc, by assumption, rfl⟩
  · rintro ⟨ho, c, hc, ha, rfl⟩
    exact ⟨t, ho, by rw [hc]; exact if_neg ha⟩

/-- A received frame may move a channel or drop it. -/
theorem receive_params {frame : Frame} {topic : Topic} {c' : Channel}
    (h : (p.receive frame).2.channels[topic]? = some c') :
    ∃ c : Channel, p.channels[topic]? = some c ∧ c.params = c'.params := by
  have hmoved : ∀ {t : Topic} {state : ChannelState}, (setState p.channels t state)[topic]? = some c' →
      ∃ c : Channel, p.channels[topic]? = some c ∧ c.params = c'.params := by
    intro t state h
    rw [lookup_setState] at h
    split at h
    · obtain ⟨c, hc, rfl⟩ := Option.map_eq_some_iff.mp h
      exact ⟨c, hc, rfl⟩
    · exact ⟨c', h, rfl⟩
  have hrec := received p frame
  generalize (p.receive frame).1 = result at hrec
  generalize (p.receive frame).2 = p' at hrec h
  cases hrec with
  | closed | errored => exact hmoved h
  | @settled r pending status response hs he hr hp hd =>
    cases pending with
    | join t => cases status <;> exact hmoved h
    | leave t =>
      rw [settle, Table.lookup_erase] at h
      split at h
      · cases h
      · exact ⟨c', h, rfl⟩
    | push | heartbeat => exact ⟨c', h, rfl⟩
  | _ => exact ⟨c', h, rfl⟩

/-- **Where a channel's parameters come from.** -/
theorem stores {op : Op} {topic : Topic} {c' : Channel}
    (h : (p.perform op).2.channels[topic]? = some c') : Stores p op topic c'.params := by
  have hgiven : ∀ {t : Topic} {params : Value} {outcome : Outcome},
      (t = topic ∧ outcome.sent.isEmpty = false ∧ c'.params = params) ∨
        (¬ (t = topic ∧ outcome.sent.isEmpty = false) ∧ p.channels[topic]? = some c') →
      (if t = topic ∧ !outcome.sent.isEmpty then some params else none) = some c'.params ∨
        (if t = topic ∧ !outcome.sent.isEmpty then some params else none) = none ∧ p.channels[topic]? = some c' := by
    rintro t params outcome (⟨ht, he, hp⟩ | ⟨hn, hc⟩)
    · exact .inl (by rw [if_pos ⟨ht, by rw [he]; rfl⟩, hp])
    · exact .inr ⟨if_neg (by simpa using hn), hc⟩
  cases op with
  | join t params =>
    rcases hgiven (join_stores h) with hg | ⟨hn, hc⟩
    · exact .given hg
    · exact .kept hn hc rfl
  | rejoin t params =>
    rcases hgiven (rejoin_stores h) with hg | ⟨hn, hc⟩
    · exact .given hg
    · exact .kept hn hc rfl
  | rejoinAllWithStoredParams order =>
    rcases rejoinEach_stores h with hm | hc
    · obtain ⟨-, c, hc, -, hp⟩ := mem_inactive.mp hm
      exact .kept rfl hc hp
    · exact .kept rfl hc rfl
  | leave t =>
    simp only [perform] at h
    rcases leave_cases p t with ⟨error, hl⟩ | ⟨channel, hc, hs⟩
    · rw [hl] at h
      exact .kept rfl h rfl
    · rw [leave_of_joined hc hs, Table.lookup_insert] at h
      split at h
      · subst_vars
        cases h
        exact .kept rfl hc rfl
      · exact .kept rfl h rfl
  | push t event payload =>
    simp only [perform] at h
    cases hj : p.joinedRef t with
    | none =>
      rw [push_of_not_joined hj] at h
      exact .kept rfl h rfl
    | some joinRef =>
      rw [push_of_joined hj] at h
      exact .kept rfl h rfl
  | heartbeat => exact .kept rfl h rfl
  | forgetPush r =>
    simp only [perform] at h
    rcases forgetPush_cases p r with ⟨_, _, _, he⟩ | he <;> rw [he] at h <;> exact .kept rfl h rfl
  | forgetHeartbeat r =>
    simp only [perform] at h
    rcases forgetHeartbeat_cases p r with ⟨_, he⟩ | he <;> rw [he] at h <;> exact .kept rfl h rfl
  | discardChannel t =>
    simp only [perform, discardChannel, Table.lookup_erase] at h
    split at h
    · cases h
    · exact .kept rfl h rfl
  | resetConnection =>
    simp only [perform, resetConnection] at h
    rw [Std.ExtTreeMap.getElem?_map] at h
    obtain ⟨c, hc, rfl⟩ := Option.map_eq_some_iff.mp h
    exact .kept rfl hc rfl
  | receive frame =>
    obtain ⟨c, hc, hp⟩ := receive_params h
    exact .kept rfl hc hp

/-- References of a table's channels were handed out. -/
def RefsIssued (p : Protocol) : Prop := ∀ (t : Topic) (c : Channel), p.channels[t]? = some c → p.Issued c.joinRef

/-- A channel's reference is one it had, or one the call returned. -/
theorem RefsIssued.perform (h : p.RefsIssued) (hn : p.Numbered) {op : Op}
    (hb : (p.perform op).2.allocated < 2 ^ 64) : (p.perform op).2.RefsIssued := by
  have hclean := clean_perform hn op hb
  intro t c' hc'
  cases became hc' with
  | @started outbound hj href _ =>
    refine href ▸ (hclean.fresh outbound.reference ?_).2
    refine List.mem_map.mpr ⟨outbound, ?_, rfl⟩
    have hlast : lastFor t (p.perform op).1.sent = some outbound := by
      unfold Entry.started at hj
      split at hj
      · exact hj
      · exact hj
      · exact hj
      · cases hj
    exact (List.mem_filter.mp (List.mem_of_getLast? hlast)).1
  | kept _ hc href _ =>
    rw [href]
    exact (h t _ hc).mono hclean.grows

/-- What a rejoin of all topics returns and leaves, next to the snapshot it is taken from. -/
structure RejoinsAll (p p' : Protocol) (sent : List Outbound) (params : Topic → Option Value) : Prop where
  once : (sent.map fun outbound => outbound.frame.topic).Nodup
  exactly : ∀ topic, topic ∈ sent.map (fun outbound => outbound.frame.topic) ↔ p.Inactive topic
  each : ∀ outbound ∈ sent, ∃ stored, params outbound.frame.topic = some stored ∧
    Rejoined p' outbound outbound.frame.topic stored
  fresh : ∀ outbound ∈ sent, outbound.reference ∉ p.pending ∧
    ∀ (t : Topic) (c : Channel), p.channels[t]? = some c → c.joinRef ≠ outbound.reference
  apart : (sent.map Outbound.reference).Nodup
  beyond : Beyond p p' (sent.map fun outbound => outbound.frame.topic)

/-- The snapshot names no topic twice, as the channels are a map. -/
theorem nodup_inactive {order : List Topic} (h : Table.IsOrder order p.channels) :
    ((p.inactive order).map Prod.fst).Nodup := by
  have hkeys : ∀ order : List Topic, ((p.inactive order).map Prod.fst).Sublist order := by
    intro order
    induction order with
    | nil => exact .slnil
    | cons t rest ih =>
      rw [inactive, List.filterMap_cons]
      split
      · exact ih.cons t
      · rename_i target htarget
        have hfst : target.1 = t := by
          split at htarget
          · split at htarget
            · cases htarget
            · cases htarget
              rfl
          · cases htarget
        rw [List.map_cons, hfst]
        exact ih.cons_cons t
  exact ((h.nodup_iff).mpr Std.ExtTreeMap.nodup_keys).sublist (hkeys order)

/-- The snapshot names the inactive topics. -/
theorem inactive_topics {order : List Topic} (h : Table.IsOrder order p.channels) {t : Topic} :
    t ∈ (p.inactive order).map Prod.fst ↔ p.Inactive t := by
  rw [List.mem_map]
  constructor
  · rintro ⟨⟨t, params⟩, hm, rfl⟩
    obtain ⟨-, c, hc, ha, -⟩ := mem_inactive.mp hm
    exact ⟨c, hc, not_active_iff.mp ha⟩
  · rintro ⟨c, hc, ha⟩
    have ho := (h.mem t).mpr (Table.mem_of_lookup hc)
    exact ⟨(t, c.params), mem_inactive.mpr ⟨ho, c, hc, not_active_iff.mpr ha, rfl⟩, rfl⟩

end Protocol

namespace History

/-- Channels are stored with the parameters of the latest join. -/
theorem stored {h : History} (hr : machine.Reachable h) {t : Topic} {c : Channel}
    (hc : h.protocol.channels[t]? = some c) : latestParams h.log t = some c.params := by
  refine hr.invariant (P := fun h => ∀ (t : Topic) (c : Channel), h.protocol.channels[t]? = some c →
    latestParams h.log t = some c.params) ?_ ?_ t c hc
  · intro t c hc
    simp [machine, Protocol.new] at hc
  · intro h op h' _ ih _ hs t c hc
    cases eq_record hs
    simp only [record, latestParams_append]
    cases Protocol.stores hc with
    | given hg =>
      rw [hg]
      rfl
    | kept hn hbefore hp =>
      rw [hn, Option.none_or, ← hp]
      exact ih t _ hbefore

/-- References are numbered and issued in every run in which the counter has not wrapped. -/
theorem referenced {h : History} (hr : machine.Reachable h) (hb : h.protocol.allocated < 2 ^ 64) :
    h.protocol.Numbered ∧ h.protocol.RefsIssued := by
  refine hr.invariant (P := fun h => h.protocol.allocated < 2 ^ 64 →
    h.protocol.Numbered ∧ h.protocol.RefsIssued) ?_ ?_ hb
  · exact fun _ => ⟨Protocol.numbered_new, fun t c hc => by simp [machine, Protocol.new] at hc⟩
  · intro h op h' _ ih _ hs hb
    cases eq_record hs
    obtain ⟨hn, hi⟩ := ih (Nat.lt_of_le_of_lt (Protocol.perform_grows _ op) hb)
    exact ⟨(Protocol.clean_perform hn op hb).numbered, hi.perform hn hb⟩

/-- **A rejoin of all topics rejoins every inactive topic once, and nothing else.** -/
theorem rejoins_all_exactly {h : History} (hr : machine.Reachable h) {order : List Topic}
    (ho : Table.IsOrder order h.protocol.channels)
    (hb : (h.protocol.rejoinAllWithStoredParams order).2.allocated < 2 ^ 64) :
    Protocol.RejoinsAll h.protocol (h.protocol.rejoinAllWithStoredParams order).2
      (h.protocol.rejoinAllWithStoredParams order).1 (latestParams h.log) := by
  unfold Protocol.rejoinAllWithStoredParams at hb ⊢
  obtain ⟨hn, hissued⟩ := referenced hr (Nat.lt_of_le_of_lt (Protocol.rejoinEach_grows _ _) hb)
  have hinactive := fun t => @Protocol.inactive_topics h.protocol order ho t
  have hclean := Protocol.clean_rejoinEach (h.protocol.inactive order) hn hb
  obtain ⟨hall, hbeyond⟩ := Protocol.rejoinEach_rejoined hn hb (Protocol.nodup_inactive ho) fun target hm =>
    (hinactive target.1).mp (List.mem_map_of_mem hm)
  have htopics : ((h.protocol.rejoinEach (h.protocol.inactive order)).1.map fun outbound => outbound.frame.topic) =
      (h.protocol.inactive order).map Prod.fst := by
    rw [← List.forall₂_eq_eq_eq, List.forall₂_map_left_iff, List.forall₂_map_right_iff]
    exact List.Forall₂.imp (fun outbound target hj => by rw [hj.frame]) hall
  refine ⟨?_, ?_, fun outbound hm => ?_, fun outbound hm => ?_, hclean.nodup, ?_⟩
  · rw [htopics]
    exact Protocol.nodup_inactive ho
  · rw [htopics]
    exact hinactive
  · obtain ⟨i, hi, rfl⟩ := List.getElem_of_mem hm
    have hi' := hall.length_eq ▸ hi
    have hj := hall.get hi hi'
    simp only [List.get_eq_getElem] at hj
    obtain ⟨-, c, hc, -, hp⟩ :=
      Protocol.mem_inactive.mp (show (_, _) ∈ h.protocol.inactive order from List.getElem_mem hi')
    simp only [List.get_eq_getElem] at hc hp
    have htopic := congrArg Frame.topic hj.frame
    dsimp only at htopic
    refine ⟨_, ?_, htopic ▸ hj⟩
    rw [htopic, stored hr hc, hp]
  · obtain ⟨hnew, -⟩ := hclean.fresh outbound.reference (List.mem_map_of_mem hm)
    exact ⟨fun hp => hnew (hn.pending _ hp), fun t c hc he => hnew (he ▸ hissued t c hc)⟩
  · rw [htopics]
    exact hbeyond

/-- `room` is disconnected, `hall` is joining, and a heartbeat waits. -/
def restingOps : List Op := [.join "room" (.string "token"), .resetConnection, .join "hall" .null, .heartbeat]

def resting : History := restingOps.foldl record machine.start

theorem reachable_resting : machine.Reachable resting :=
  Machine.reachable_iff_run.mpr ⟨restingOps, rfl⟩

/-- Of the two topics only `room` is inactive, and it is rejoined under a fourth reference. -/
theorem rejoins_all_exactly_resting :
    let rejoined := resting.protocol.rejoinAllWithStoredParams ["hall", "room"]
    rejoined.1.map Outbound.reference = ["4"] ∧
      Protocol.RejoinsAll resting.protocol rejoined.2 rejoined.1 (latestParams resting.log) := by
  refine ⟨by decide +kernel, rejoins_all_exactly reachable_resting ?_ (by decide +kernel)⟩
  decide +kernel

end History
end PhoenixChannel.Runtime
