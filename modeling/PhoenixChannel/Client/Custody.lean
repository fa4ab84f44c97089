import PhoenixChannel.Client.Conservation
import PhoenixChannel.Client.PushOrder
import PhoenixChannel.Client.WrapAround
import Mathlib.Data.List.Nodup

/-! What whole runs make of requests.

With ids of their own, and as long as references are new, every request the driver accepted
is at one place with its response, or was settled once. A push is sent once at most, so a
reply that answers it was made to the one frame that was sent for it. -/
namespace PhoenixChannel.Client
open PhoenixChannel.Runtime Library
open Protocol (Moves)

namespace Driver

/-! ### Places

A place is a record or a reference. What is held at two of them is counted twice, so a count of one
says that the place is unique. -/

section
variable {channel : ChannelRecord → List Request} {leave : PendingLeave → List Request} {d : Driver}
  {x : Request} {p q : Place}

theorem count_elim {κ α : Type} [Ord κ] [Std.TransOrd κ] [Std.LawfulEqOrd κ] (f : α → List Request)
    (m : Table κ α) (k : κ) (x : Request) :
    ((m[k]?).elim [] f).count x = Table.shareAt (due f x) m k := by
  cases h : m[k]? with
  | none => simp [Table.shareAt, h]
  | some a => simp [Table.shareAt, h, due]

theorem count_tallyAt_record (t : Topic) :
    (d.tallyAt channel leave (.record t)).count x = Table.shareAt (due channel x) d.state.channels t :=
  count_elim ..

theorem count_tallyAt_reference (r : Reference) :
    (d.tallyAt channel leave (.reference r)).count x =
      Table.shareAt (due PendingCall.owed x) d.state.pendingCalls r +
        Table.shareAt (due PendingPing.owed x) d.state.pendingPings r +
        Table.shareAt (due leave x) d.state.pendingLeaves r := by
  simp only [tallyAt, List.count_append, count_elim]

/-- What two places hold is held twice. -/
theorem count_places_le (h : p ≠ q) :
    (d.tallyAt channel leave p).count x + (d.tallyAt channel leave q).count x ≤
      (d.tally channel leave).count x := by
  rw [count_tally]
  cases p with
  | record t =>
    have ht := Table.shareAt_le_total (due channel x) d.state.channels t
    cases q with
    | record t' =>
      have hne : t ≠ t' := fun he => h (congrArg Place.record he)
      have := Table.shareAt_add_le_total (due channel x) d.state.channels hne
      rw [count_tallyAt_record, count_tallyAt_record]
      omega
    | reference r =>
      have hc := Table.shareAt_le_total (due PendingCall.owed x) d.state.pendingCalls r
      have hp := Table.shareAt_le_total (due PendingPing.owed x) d.state.pendingPings r
      have hl := Table.shareAt_le_total (due leave x) d.state.pendingLeaves r
      rw [count_tallyAt_record, count_tallyAt_reference]
      omega
  | reference r =>
    cases q with
    | record t =>
      have ht := Table.shareAt_le_total (due channel x) d.state.channels t
      have hc := Table.shareAt_le_total (due PendingCall.owed x) d.state.pendingCalls r
      have hp := Table.shareAt_le_total (due PendingPing.owed x) d.state.pendingPings r
      have hl := Table.shareAt_le_total (due leave x) d.state.pendingLeaves r
      rw [count_tallyAt_record, count_tallyAt_reference]
      omega
    | reference r' =>
      have hne : r ≠ r' := fun he => h (congrArg Place.reference he)
      have hc := Table.shareAt_add_le_total (due PendingCall.owed x) d.state.pendingCalls hne
      have hp := Table.shareAt_add_le_total (due PendingPing.owed x) d.state.pendingPings hne
      have hl := Table.shareAt_add_le_total (due leave x) d.state.pendingLeaves hne
      rw [count_tallyAt_reference, count_tallyAt_reference]
      omega

/-- What is held once is held at one place. -/
theorem place_unique (h : d.held.count x ≤ 1) (hp : x ∈ d.heldAt p) (hq : x ∈ d.heldAt q) : p = q := by
  by_contra hne
  have hle : (d.heldAt p).count x + (d.heldAt q).count x ≤ d.held.count x := count_places_le hne
  have hp := List.count_pos_iff.mpr hp
  have hq := List.count_pos_iff.mpr hq
  omega

/-- A table's entries hold what it holds under some key. -/
theorem mem_entries {κ α : Type} [Ord κ] [Std.TransOrd κ] [Std.LawfulEqOrd κ] (f : α → List Request)
    (m : Table κ α) :
    (x ∈ m.toList.flatMap fun entry => f entry.2) ↔ ∃ k : κ, x ∈ (m[k]?).elim [] f := by
  simp only [List.mem_flatMap, Prod.exists, Std.ExtTreeMap.mem_toList_iff_getElem?_eq_some]
  constructor
  · rintro ⟨k, a, hk, hx⟩
    exact ⟨k, by rw [hk]; exact hx⟩
  · rintro ⟨k, hx⟩
    cases hk : m[k]? with
    | none =>
      rw [hk] at hx
      cases hx
    | some a =>
      rw [hk] at hx
      exact ⟨k, a, hk, hx⟩

/-- What is held anywhere is held at some place. -/
theorem mem_tally : x ∈ d.tally channel leave ↔ ∃ p, x ∈ d.tallyAt channel leave p := by
  simp only [tally, List.mem_append, mem_entries]
  constructor
  · rintro (((⟨t, hx⟩ | ⟨r, hx⟩) | ⟨r, hx⟩) | ⟨r, hx⟩)
    · exact ⟨.record t, hx⟩
    · exact ⟨.reference r, List.mem_append_left _ (List.mem_append_left _ hx)⟩
    · exact ⟨.reference r, List.mem_append_left _ (List.mem_append_right _ hx)⟩
    · exact ⟨.reference r, List.mem_append_right _ hx⟩
  · rintro ⟨t | r, hx⟩
    · exact .inl (.inl (.inl ⟨t, hx⟩))
    · simp only [tallyAt, List.mem_append] at hx
      rcases hx with (hx | hx) | hx
      · exact .inl (.inl (.inr ⟨r, hx⟩))
      · exact .inl (.inr ⟨r, hx⟩)
      · exact .inr ⟨r, hx⟩

end

/-! ### Steps

`Permits` names the inputs that may cancel a request or reply to a call. A step that honors its
requests balances accepted against settled and held. -/

/-- What a step may do besides: a licence counts as long as the connection is not lost. -/
def Permits (env : Env) (d d' : Driver) (input : Input) (effect : Effect) : Prop :=
  Licensed env d input effect ∧ (d.phase = .connected → d'.phase = .connected)

section
variable {env : Env} {d d' : Driver} {input : Input}

/-- Every step is one of the handlers' steps that were treated one by one, or it closes the driver. -/
theorem honors_step (h : (driver env).Reachable d) (hs : d.step env input = some d')
    (hn : ∀ id, input.request = some (.join, id) → (.join, id) ∉ d.owed) :
    d.Finishes d' ∨ Honors (Permits env d d' input) input.request.toList (d.noted input) d' := by
  cases stepped hs with
  | tick elapsed hi hd =>
    subst hi hd
    rw [noted_of_none rfl]
    exact .inr (.of_quiet .refl rfl rfl rfl rfl (.of_trace rfl))
  | dropped topic hi hd =>
    subst hi hd
    rw [noted_of_none rfl]
    exact .inr (Honors.refl _ d).setStatus
  | offline hc ho hs =>
    exact hs.honors hn fun operation id hi => ⟨.cancel operation id hi, fun hp => absurd hp hc⟩
  | connected hp hs =>
    exact hs.honors (reachable_coherent h) hn (fun effect hl hp' => ⟨hl, fun _ => hp'⟩) hp

/-- **What a step does to requests**: it accepts that of its input, and honors all. -/
theorem honored_step (h : (driver env).Reachable d) (hs : d.step env input = some d')
    (hn : ∀ id, input.request = some (.join, id) → (.join, id) ∉ d.owed) :
    d.Finishes d' ∨ ∃ effects, accepted effects = [] ∧
      d'.trace = d.trace ++
        (input.request.toList.map (fun request => .accepted request.1 request.2) ++ effects) ∧
      Honored (Permits env d d' input) input.request.toList input.request.toList d d' effects := by
  have hnew : d.New d' → (d.noted input).New d' := fun ⟨hm, hb, hl⟩ =>
    ⟨hm, hb, hl.of_tables (Nat.le_refl _) rfl rfl rfl⟩
  refine (honors_step h hs hn).imp_right fun ⟨effects, ht, hh⟩ => ⟨effects, ?_, ?_,
    ⟨hh.moved, hh.atMost, fun hm => hh.atLeast (hnew hm), hh.places, hh.records, hh.references,
      fun hm => hh.listed (hnew hm), hh.kinds, fun hm => hh.calls (hnew hm)⟩⟩
  · refine List.flatMap_eq_nil_iff.mpr fun effect hm => ?_
    rcases hh.kinds effect hm with hplain | ⟨hl, -⟩ | ⟨hsends, -⟩
    · cases effect with
      | accepted operation id => exact hplain.elim
      | _ => rfl
    · cases hl <;> rfl
    · cases effect with
      | accepted operation id => exact hsends.elim
      | _ => rfl
  · rw [ht, ← List.append_assoc]
    rfl

theorem settled_accepts (requests : List Request) :
    settled (requests.map fun request => .accepted request.1 request.2) = [] := by
  induction requests with
  | nil => rfl
  | cons request rest ih => rw [List.map_cons, settled_cons, ih]; rfl

theorem accepted_accepts (requests : List Request) :
    accepted (requests.map fun request => .accepted request.1 request.2) = requests := by
  induction requests with
  | nil => rfl
  | cons request rest ih => rw [List.map_cons, accepted_cons, ih]; rfl

/-- A driver that is over stays so. -/
theorem closed_step (hs : d.step env input = some d') (hp : d.phase = .closed) : d'.phase = .closed := by
  cases stepped hs with
  | tick elapsed hi hd => rwa [hd]
  | dropped topic hi hd =>
    have hk : Apart topic d (d.setStatus topic .closed) := (Apart.refl topic d).setStatus
    rw [hd, hk.phase, hp]
  | offline hc ho hs => exact absurd hp ho
  | connected hc hs => cases hp.symm.trans hc

/-! ### Runs

The balance holds at the start and every step keeps it. Ids of their own make every count one at
most. -/

/-- The books of a run: what was accepted is held with its response or was settled, and what is
in flight was sent. -/
structure Balanced (inputs : List Input) (d : Driver) : Prop where
  taken : accepted d.trace = inputs.filterMap Input.request
  balance : ∀ x, d.owed.count x + (settled d.trace).count x = (accepted d.trace).count x
  places : ∀ x, d.held.count x ≤ (accepted d.trace).count x
  listed : d.Listed
  sent : ∀ r x, x ∈ d.heldAt (.reference r) →
    ∃ served frame, .outgoing served frame ∈ d.trace ∧ x.2 ∈ served ∧ frame.reference = some r

theorem requests_eq (inputs : List Input) :
    requests inputs = (inputs.filterMap Input.request).map Prod.snd := by
  rw [requests, List.map_filterMap]

/-- At first nothing was accepted and nothing is held. -/
theorem balanced_start : Balanced [] (start env) := by
  have hs := settled_start env
  have ht : accepted (start env).trace = [] ∧ settled (start env).trace = [] ∧
      (start env).state.channels = ∅ := by
    unfold start
    dsimp only
    split <;> exact ⟨rfl, rfl, rfl⟩
  have hnone : ∀ (channel : ChannelRecord → List Request) (leave : PendingLeave → List Request),
      (start env).tally channel leave = [] := by
    intro channel leave
    simp only [tally, ht.2.2, hs.calls, hs.pings, hs.leaves]
    rfl
  refine ⟨ht.1, fun x => ?_, fun x => ?_, ⟨?_, ?_, ?_⟩, fun r x hx => ?_⟩
  · simp [owed, hnone, ht.1, ht.2.1]
  · simp [held, hnone, ht.1]
  · rw [hs.calls]
    exact fun r hr => absurd hr Std.ExtTreeMap.not_mem_empty
  · rw [hs.pings]
    exact fun r hr => absurd hr Std.ExtTreeMap.not_mem_empty
  · rw [hs.leaves]
    exact fun r hr => absurd hr Std.ExtTreeMap.not_mem_empty
  · have hm : x ∈ (start env).held := mem_tally.mpr ⟨_, hx⟩
    rw [held, hnone] at hm
    cases hm

/-- A request made now was not made before. -/
theorem fresh_of_nodup {inputs : List Input} {x : Request} (hids : (requests (inputs ++ [input])).Nodup)
    (hx : input.request = some x) : ∀ y ∈ inputs.filterMap Input.request, y.2 ≠ x.2 := by
  intro y hy he
  rw [requests_eq, List.filterMap_append, List.map_append] at hids
  have hdisjoint := (List.nodup_append.mp hids).2.2
  refine hdisjoint y.2 (List.mem_map_of_mem hy) x.2 ?_ he
  simp [hx]

/-- A request whose id is new is held nowhere: what is held was accepted, and so has another id. -/
theorem Balanced.fresh {inputs : List Input} (ha : Balanced inputs d) {x : Request}
    (hids : (requests (inputs ++ [input])).Nodup) (hx : input.request = some x) :
    x ∉ d.owed ∧ x ∉ d.held := by
  have hnot : (accepted d.trace).count x = 0 := by
    rw [ha.taken]
    exact List.count_eq_zero_of_not_mem fun hm => fresh_of_nodup hids hx x hm rfl
  have hs := ha.balance x
  have hp := ha.places x
  exact ⟨List.count_eq_zero.mp (by omega), List.count_eq_zero.mp (by omega)⟩

/-- By induction over the inputs, the last one first; a run that ends open was open all along. -/
theorem balanced_run (inputs : List Input) (d : Driver)
    (hr : (driver env).run (driver env).start inputs = some d) (hids : (requests inputs).Nodup)
    (hp : d.phase ≠ .closed) (hb : d.state.protocol.allocated < 2 ^ 64) : Balanced inputs d := by
  induction inputs using List.reverseRecOn generalizing d with
  | nil =>
    cases hr
    exact balanced_start
  | append_singleton inputs input ih =>
    obtain ⟨d₁, hrun, hs⟩ := Machine.run_concat.mp hr
    have hs : d₁.step env input = some d := hs
    have hreach := Machine.reachable_iff_run.mpr ⟨inputs, hrun⟩
    have hb₁ := Nat.lt_of_le_of_lt (Moves.grows (step_moved hs)) hb
    have hids₁ : (requests inputs).Nodup := by
      rw [requests, List.filterMap_append] at hids
      exact hids.of_append_left
    have ha := ih d₁ hrun hids₁ (fun hc => hp (closed_step hs hc)) hb₁
    obtain ⟨effects, hnone, ht, hh⟩ := (honored_step hreach hs
      fun id hx => (ha.fresh hids hx).1).resolve_left fun h => hp h.1
    have hnew : d₁.New d := ⟨reachable_numbered hreach hb₁, hb, ha.listed⟩
    have haccepted : accepted d.trace = accepted d₁.trace ++ input.request.toList := by
      rw [ht, accepted_append, accepted_append, accepted_accepts, hnone, List.append_nil]
    have hsettled : settled d.trace = settled d₁.trace ++ settled effects := by
      rw [ht, settled_append, settled_append, settled_accepts, List.nil_append]
    refine ⟨?_, fun x => ?_, fun x => ?_, hh.listed hnew, fun r x hx => ?_⟩
    · rw [haccepted, ha.taken, List.filterMap_append]
      cases hq : input.request <;> simp [hq]
    · have hle := hh.atMost x
      have hge := hh.atLeast hnew x
      have hx := ha.balance x
      rw [haccepted, hsettled, List.count_append, List.count_append]
      omega
    · have hle := hh.places x
      have hx := ha.places x
      rw [haccepted, List.count_append]
      omega
    · rcases hh.references r x hx with hx | ⟨-, served, frame, hm, hrest⟩
      · obtain ⟨served, frame, hm, hrest⟩ := ha.sent r x hx
        exact ⟨served, frame, by rw [ht]; exact List.mem_append_left _ hm, hrest⟩
      · exact ⟨served, frame, by rw [ht]; exact List.mem_append_right _ (List.mem_append_right _ hm), hrest⟩

end

/-! ### Frames

The frames that serve a push are found in the trace by its id. The order of the pushes of a channel
has each push in it once. -/

/-- The frame the effect sends for the request. -/
def frameFor (id : RequestId) : Effect → Option Frame
  | .outgoing served frame => if id ∈ served then some frame else none
  | _ => none

/-- The frames that were sent for a request. -/
def framesFor (id : RequestId) (effects : List Effect) : List Frame := effects.filterMap (frameFor id)

section
variable {env : Env} {d : Driver} {id : RequestId} {t t' : Topic} {inputs : List Input}

/-- The frames for a request are those that went out and served it. -/
theorem mem_framesFor {effects : List Effect} {frame : Frame} :
    frame ∈ framesFor id effects ↔ ∃ served, .outgoing served frame ∈ effects ∧ id ∈ served := by
  simp only [framesFor, List.mem_filterMap]
  constructor
  · rintro ⟨effect, hm, hf⟩
    cases effect with
    | outgoing served sent =>
      simp only [frameFor] at hf
      split at hf
      · cases hf
        exact ⟨served, hm, by assumption⟩
      · cases hf
    | _ => cases hf
  · rintro ⟨served, hm, hid⟩
    exact ⟨_, hm, if_pos hid⟩

/-- Frames of one topic are counted by the requests served on it. -/
theorem length_framesFor_le {effects : List Effect} (h : ∀ frame ∈ framesFor id effects, frame.topic = t) :
    (framesFor id effects).length ≤ (servedOn t effects).count id := by
  induction effects with
  | nil => exact Nat.le_refl _
  | cons effect rest ih =>
    have hrest : ∀ frame ∈ framesFor id rest, frame.topic = t := fun frame hm => by
      obtain ⟨served, hm, hid⟩ := mem_framesFor.mp hm
      exact h frame (mem_framesFor.mpr ⟨served, List.mem_cons_of_mem _ hm, hid⟩)
    have hle := ih hrest
    have hcons : servedOn t (effect :: rest) = effect.servedOn t ++ servedOn t rest := List.flatMap_cons
    rw [hcons, List.count_append, framesFor, List.filterMap_cons]
    cases hf : frameFor id effect with
    | none => exact Nat.le_trans hle (Nat.le_add_left ..)
    | some frame =>
      have ht : frame.topic = t := h frame (by simp [framesFor, hf])
      cases effect with
      | outgoing served sent =>
        simp only [frameFor] at hf
        split at hf
        · rename_i hid
          cases hf
          have hpos : 0 < (Effect.servedOn t (.outgoing served frame)).count id := by
            rw [Effect.servedOn, if_pos ht]
            exact List.count_pos_iff.mpr hid
          simp only [List.length_cons]
          exact Nat.add_comm _ 1 ▸ Nat.add_le_add hpos hle
        · cases hf
      | _ => cases hf

/-- The pushes of a topic are some of all requests, in the order of these. -/
theorem pushesOn_sublist (t : Topic) (inputs : List Input) :
    (pushesOn t inputs).Sublist (requests inputs) := by
  induction inputs with
  | nil => exact List.Sublist.refl _
  | cons input rest ih =>
    rw [pushesOn, requests, List.filterMap_cons, List.filterMap_cons]
    cases hp : input.pushOn t with
    | some x =>
      rw [(pushOn_eq_some hp).1]
      exact ih.cons_cons x
    | none =>
      cases input.request.map Prod.snd with
      | none => exact ih
      | some x => exact ih.cons x

/-- A push is taken once, and on one topic. -/
theorem not_mem_pushesOn (hids : (requests inputs).Nodup) (h : id ∈ pushesOn t inputs) (hne : t' ≠ t) :
    id ∉ pushesOn t' inputs := by
  induction inputs with
  | nil => cases h
  | cons input rest ih =>
    have hrest : (requests rest).Nodup := by
      refine hids.sublist ?_
      rw [requests, requests, List.filterMap_cons]
      split
      · exact List.Sublist.refl _
      · exact List.sublist_cons_self ..
    have hnot : ∀ {x}, input.request.map Prod.snd = some x → ∀ t, x ∉ pushesOn t rest := by
      intro x hx t hm
      rw [requests, List.filterMap_cons, hx] at hids
      exact (List.nodup_cons.mp hids).1 ((pushesOn_sublist t rest).subset hm)
    intro h'
    obtain ⟨i, hi, hp⟩ := List.mem_filterMap.mp h
    obtain ⟨i', hi', hp'⟩ := List.mem_filterMap.mp h'
    rcases List.mem_cons.mp hi with rfl | hold
    · rcases List.mem_cons.mp hi' with rfl | hold'
      · cases hp'.symm.trans ((pushOn_eq_some hp).2 t' hne)
      · exact hnot (pushOn_eq_some hp).1 t' (List.mem_filterMap.mpr ⟨i', hold', hp'⟩)
    · rcases List.mem_cons.mp hi' with rfl | hold'
      · exact hnot (pushOn_eq_some hp').1 t (List.mem_filterMap.mpr ⟨i, hold, hp⟩)
      · exact ih hrest (List.mem_filterMap.mpr ⟨i, hold, hp⟩) (List.mem_filterMap.mpr ⟨i', hold', hp'⟩)

/-- **A push is sent at most once**, and not while it is queued. -/
theorem sent_once (hr : (driver env).run (driver env).start inputs = some d)
    (hids : (requests inputs).Nodup) (hpush : id ∈ pushesOn t inputs) :
    (framesFor id d.trace).length + (d.queuedIds t).count id ≤ 1 := by
  have hu : ∀ input ∈ inputs, Unmarked (fun x => x = id) input := by
    intro input hm operation id' hreq hcall hcast
    have hun := unmarked_of_nodup hids t input hm operation id' hreq hcall hcast
    refine decide_eq_false ?_
    rintro rfl
    exact of_decide_eq_false hun hpush
  have hserved : ∀ t', (servedOn t' d.trace).count id + (d.queuedIds t').count id ≤
      (pushesOn t' inputs).count id := by
    intro t'
    have hle := (inOrder_run _ t' inputs d hr hu).order.count_le id
    rwa [List.count_append, List.count_filter (by simp)] at hle
  have htopic : ∀ frame ∈ framesFor id d.trace, frame.topic = t := by
    intro frame hm
    by_contra hne
    obtain ⟨served, hm, hid⟩ := mem_framesFor.mp hm
    have hpos : 0 < (servedOn frame.topic d.trace).count id := by
      refine List.count_pos_iff.mpr (List.mem_flatMap.mpr ⟨_, hm, ?_⟩)
      rwa [Effect.servedOn, if_pos rfl]
    have hle := hserved frame.topic
    rw [List.count_eq_zero_of_not_mem (not_mem_pushesOn hids hpush hne)] at hle
    omega
  have hle := length_framesFor_le htopic
  have hone := List.nodup_iff_count_le_one.mp (hids.sublist (pushesOn_sublist t inputs)) id
  have := hserved t
  omega

end

/-! ### What is promised

`Conserved` is about the state a run ends in, and `Turn` about a step it takes: where a response may
move to and what may settle it. -/

/-- The requests of a run, each of which is at one place or settled. -/
structure Conserved (inputs : List Input) (d : Driver) : Prop where
  taken : accepted d.trace = inputs.filterMap Input.request
  /-- No request is held at two places, or twice at one. -/
  placed : (d.held.map Prod.snd).Nodup
  /-- Each request accepted still has its response held, or was settled: once. -/
  settled : (d.owed ++ settled d.trace).Perm (accepted d.trace)
  /-- No call or cast is sent twice. -/
  sent : ∀ id, (.call, id) ∈ accepted d.trace ∨ (.cast, id) ∈ accepted d.trace →
    (framesFor id d.trace).length ≤ 1

/-- How a step may settle requests, and which of them it may move. -/
structure Turn (env : Env) (d : Driver) (input : Input) (d' : Driver) : Prop where
  /-- A response stays at its place, follows its frame from a queue or a deferral into the
  table of its kind, or is settled. -/
  moved : ∀ place x, x ∈ d.owedAt place → x ∈ d'.owedAt place ∨ x ∈ settled (d.done d') ∨
    ∃ t r, place = .record t ∧ (x.1 = .call ∨ x.1 = .leave) ∧ x ∈ d'.owedAt (.reference r)
  cancelled : ∀ operation id, .cancelled operation id ∈ d.done d' → input = .lifecycle (.cancel id)
  /-- The reply to the frame of a call answers it. -/
  replied : ∀ id status response, .answered .call id (.ok (.reply status response)) ∈ d.done d' →
    ∃ message reply sent r, input = .message message ∧ env.codec.decode message = .ok reply ∧
      reply.event = "phx_reply" ∧ reply.reference = some r ∧ framesFor id d.trace = [sent] ∧
      sent.reference = some r
  interrupted : d.phase = .connected → d'.phase ≠ .connected → ∀ (r : Reference) (call : PendingCall),
    d.state.pendingCalls[r]? = some call →
      .answered .call call.id (.error (.interrupted .call)) ∈ d.done d'

section
variable {env : Env} {d d' : Driver} {input : Input} {inputs : List Input} {x : Request} {t : Topic}
  {r : Reference}

/-- What has a response somewhere is held there. -/
theorem owedAt_sub {place : Place} (h : x ∈ d.owedAt place) : x ∈ d.heldAt place := by
  have hleave : ∀ leave : PendingLeave, x ∈ leave.owed → x ∈ leave.held := by
    intro leave hx
    unfold PendingLeave.owed at hx
    split at hx
    · exact hx
    · cases hx
  cases place with
  | record t =>
    simp only [owedAt, heldAt, tallyAt] at h ⊢
    cases hr : d.record t with
    | none =>
      rw [hr] at h
      cases h
    | some channel =>
      rw [hr] at h
      refine (List.mem_append.mp h).elim (fun hx => List.mem_append_left _ hx) fun hx => ?_
      refine List.mem_append_right _ (List.count_pos_iff.mp ?_)
      exact Nat.lt_of_lt_of_le (List.count_pos_iff.mpr hx) (leaveOwed_le _ x)
  | reference r =>
    simp only [owedAt, heldAt, tallyAt, List.mem_append] at h ⊢
    refine h.imp_right fun hx => ?_
    cases hl : d.state.pendingLeaves[r]? with
    | none =>
      rw [hl] at hx
      cases hx
    | some leave =>
      rw [hl] at hx
      exact hleave leave hx

/-- A record holds no pings. -/
theorem operation_of_record (h : x ∈ d.heldAt (.record t)) : x.1 ≠ .ping := by
  simp only [heldAt, tallyAt] at h
  cases hr : d.record t with
  | none =>
    rw [hr] at h
    cases h
  | some channel =>
    rw [hr] at h
    simp only [Option.elim_some, ChannelRecord.held, List.mem_append, List.mem_map] at h
    rcases h with (⟨id, -, rfl⟩ | ⟨push, -, rfl⟩) | hl
    · simp
    · cases push <;> simp [QueuedPush.request, QueuedPush.operation]
    · cases hd : channel.deferredLeave with
      | none =>
        rw [hd] at hl
        cases hl
      | some leave =>
        rw [hd] at hl
        cases List.mem_singleton.mp hl
        simp

/-- Joins and casts do not wait under a reference with their response. -/
theorem operation_of_reference (h : x ∈ d.owedAt (.reference r)) :
    x.1 = .call ∨ x.1 = .ping ∨ x.1 = .leave := by
  have h := owedAt_sub h
  simp only [heldAt, tallyAt, List.mem_append] at h
  rcases h with (hx | hx) | hx
  · cases hc : d.state.pendingCalls[r]? with
    | none =>
      rw [hc] at hx
      cases hx
    | some call =>
      rw [hc] at hx
      cases List.mem_singleton.mp hx
      exact .inl rfl
  · cases hc : d.state.pendingPings[r]? with
    | none =>
      rw [hc] at hx
      cases hx
    | some ping =>
      rw [hc] at hx
      cases List.mem_singleton.mp hx
      exact .inr (.inl rfl)
  · cases hc : d.state.pendingLeaves[r]? with
    | none =>
      rw [hc] at hx
      cases hx
    | some leave =>
      rw [hc] at hx
      cases List.mem_singleton.mp hx
      exact .inr (.inr rfl)

/-- A push that was accepted is a push of some topic. -/
theorem mem_pushesOn_of_request {operation : ClientOperation} {id : RequestId}
    (h : (operation, id) ∈ inputs.filterMap Input.request) (ho : operation = .call ∨ operation = .cast) :
    ∃ t, id ∈ pushesOn t inputs := by
  obtain ⟨input, hm, hr⟩ := List.mem_filterMap.mp h
  cases input with
  | command command =>
    cases command with
    | call id' topic event payload started =>
      cases hr
      exact ⟨topic, List.mem_filterMap.mpr ⟨_, hm, if_pos rfl⟩⟩
    | cast id' topic event payload =>
      cases hr
      exact ⟨topic, List.mem_filterMap.mpr ⟨_, hm, if_pos rfl⟩⟩
    | ping | join | leave =>
      cases hr
      rcases ho with ho | ho <;> cases ho
    | connect | disconnect | subscribe | subscribeChannel _ | shutdown => cases hr
  | _ => cases hr

theorem Balanced.nodup (ha : Balanced inputs d) (hids : (requests inputs).Nodup) :
    (accepted d.trace).Nodup := by
  rw [requests_eq, ← ha.taken] at hids
  exact hids.of_map _

/-- Ids are distinct, so what is counted at most once is there at most once. -/
theorem Balanced.conserved (ha : Balanced inputs d) (hids : (requests inputs).Nodup)
    (hr : (driver env).run (driver env).start inputs = some d) : Conserved inputs d where
  taken := ha.taken
  placed := by
    have hsub : ∀ x ∈ d.held, x ∈ accepted d.trace := fun x hx =>
      List.count_pos_iff.mp (Nat.lt_of_lt_of_le (List.count_pos_iff.mpr hx) (ha.places x))
    have hone : d.held.Nodup := List.nodup_iff_count_le_one.mpr fun x =>
      Nat.le_trans (ha.places x) (List.nodup_iff_count_le_one.mp (ha.nodup hids) x)
    rw [requests_eq, ← ha.taken] at hids
    exact hone.map_on fun x hx y hy he => List.inj_on_of_nodup_map hids (hsub x hx) (hsub y hy) he
  settled := by
    refine List.perm_iff_count.mpr fun x => ?_
    rw [List.count_append]
    exact ha.balance x
  sent id hm := by
    have hpush : ∃ t, id ∈ pushesOn t inputs := by
      rw [ha.taken] at hm
      exact hm.elim (fun h => mem_pushesOn_of_request h (.inl rfl)) fun h =>
        mem_pushesOn_of_request h (.inr rfl)
    obtain ⟨t, hpush⟩ := hpush
    exact Nat.le_trans (Nat.le_add_right ..) (sent_once hr hids hpush)

/-- A response whose place changes was in a record, and its frame was sent. -/
theorem Balanced.moved {effects : List Effect} (ha : Balanced inputs d)
    (hids : (requests (inputs ++ [input])).Nodup) (hnew : d.New d')
    (hh : Honored (Permits env d d' input) input.request.toList input.request.toList d d' effects)
    {place : Place} (hx : x ∈ d.owedAt place) (hs : x ∉ settled effects) :
    x ∈ d'.owedAt place ∨
      ∃ t r, place = .record t ∧ (x.1 = .call ∨ x.1 = .leave) ∧ x ∈ d'.owedAt (.reference r) := by
  have hheld : x ∈ d.heldAt place := owedAt_sub hx
  have howed : x ∈ d.owed := mem_tally.mpr ⟨place, hx⟩
  have hunique : ∀ place', x ∈ d.heldAt place' → place = place' := fun place' hx' => by
    rw [requests, List.filterMap_append] at hids
    have hone := List.nodup_iff_count_le_one.mp (ha.nodup hids.of_append_left) x
    exact place_unique (Nat.le_trans (ha.places x) hone) hheld hx'
  have hold : x ∉ input.request.toList := fun hm =>
    (ha.fresh hids (Option.mem_toList.mp hm)).1 howed
  have howed' : x ∈ d'.owed := by
    have hcount := hh.atLeast hnew x
    have hpos := List.count_pos_iff.mpr howed
    rw [List.count_eq_zero_of_not_mem hs] at hcount
    exact List.count_pos_iff.mp (by omega)
  obtain ⟨place', hx'⟩ := mem_tally.mp howed'
  have hx' : x ∈ d'.owedAt place' := hx'
  cases place' with
  | record t =>
    rcases hh.records t x (owedAt_sub hx') with hrecord | hnow
    · exact .inl (hunique _ hrecord ▸ hx')
    · exact absurd hnow hold
  | reference r =>
    rcases hh.references r x (owedAt_sub hx') with hreference | ⟨hsource, -⟩
    · exact .inl (hunique _ hreference ▸ hx')
    · obtain ⟨t, hrecord⟩ := hsource.resolve_left hold
      refine .inr ⟨t, r, hunique _ hrecord, ?_, hx'⟩
      have hping := operation_of_record hrecord
      exact (operation_of_reference hx').imp_right fun h => h.resolve_left hping

/-- The frame of a call in flight is the only one that was sent for it. -/
theorem Balanced.sent_frame (ha : Balanced inputs d) (hids : (requests inputs).Nodup)
    (hr : (driver env).run (driver env).start inputs = some d) {call : PendingCall}
    (hc : d.state.pendingCalls[r]? = some call) :
    ∃ sent, framesFor call.id d.trace = [sent] ∧ sent.reference = some r := by
  have hheld : (.call, call.id) ∈ d.heldAt (.reference r) := by
    simp only [heldAt, tallyAt, hc]
    exact List.mem_append_left _ (List.mem_append_left _ (List.mem_singleton_self _))
  have haccepted : (.call, call.id) ∈ accepted d.trace := by
    have hm : (.call, call.id) ∈ d.held := mem_tally.mpr ⟨_, hheld⟩
    exact List.count_pos_iff.mp (Nat.lt_of_lt_of_le (List.count_pos_iff.mpr hm) (ha.places _))
  obtain ⟨served, sent, hm, hid, href⟩ := ha.sent r _ hheld
  have hsent : sent ∈ framesFor call.id d.trace := mem_framesFor.mpr ⟨served, hm, hid⟩
  have hone := (ha.conserved hids hr).sent call.id (.inl haccepted)
  obtain ⟨frame, rest, hf⟩ := List.exists_cons_of_ne_nil (List.ne_nil_of_mem hsent)
  rw [hf, List.length_cons] at hone
  obtain rfl : rest = [] := List.eq_nil_of_length_eq_zero (by omega)
  rw [hf] at hsent
  cases List.mem_singleton.mp hsent
  exact ⟨sent, hf, href⟩

/-- A response that a step takes from its place was settled or has moved, as the books before and after it
balance. -/
theorem Balanced.turn (ha : Balanced inputs d) (hids : (requests (inputs ++ [input])).Nodup)
    (hr : (driver env).run (driver env).start inputs = some d) (hs : d.step env input = some d')
    (hp : d'.phase ≠ .closed) (hb : d'.state.protocol.allocated < 2 ^ 64) : Turn env d input d' := by
  have hreach := Machine.reachable_iff_run.mpr ⟨inputs, hr⟩
  have hb₁ := Nat.lt_of_le_of_lt (Moves.grows (step_moved hs)) hb
  have hnew : d.New d' := ⟨reachable_numbered hreach hb₁, hb, ha.listed⟩
  obtain ⟨effects, -, ht, hh⟩ := (honored_step hreach hs
    fun id hx => (ha.fresh hids hx).1).resolve_left fun h => hp h.1
  have hdone := done_of_append ht
  have heffect : ∀ effect ∈ d.done d', ¬ effect.Plain → ¬ effect.Sends →
      (∀ operation id, effect ≠ .accepted operation id) → Permits env d d' input effect := by
    intro effect hm hplain hsends hnot
    rw [hdone] at hm
    rcases List.mem_append.mp hm with hm | hm
    · obtain ⟨request, -, rfl⟩ := List.mem_map.mp hm
      exact absurd rfl (hnot request.1 request.2)
    · exact ((hh.kinds effect hm).resolve_left hplain).resolve_right fun hs => hsends hs.1
  constructor
  case moved =>
    intro place x hx
    have hsettled : settled (d.done d') = settled effects := by
      rw [hdone, settled_append, settled_accepts, List.nil_append]
    by_cases hm : x ∈ settled effects
    · exact .inr (.inl (by rw [hsettled]; exact hm))
    · exact (ha.moved hids hnew hh hx hm).imp_right .inr
  case cancelled =>
    intro operation id hm
    obtain ⟨hl, -⟩ := heffect _ hm (fun h => h) (fun h => h) nofun
    cases hl with
    | cancel _ _ hi => exact hi
  case replied =>
    intro id status response hm
    obtain ⟨hl, -⟩ := heffect _ hm (fun h => h) (fun h => h) nofun
    cases hl with
    | reply message reply r call _ _ hi hd he href hc =>
      rw [requests, List.filterMap_append] at hids
      obtain ⟨sent, hsent, hsr⟩ := ha.sent_frame hids.of_append_left hr hc
      exact ⟨message, reply, sent, r, hi, hd, he, href, hsent, hsr⟩
  case interrupted =>
    intro hc hlost r call hcall
    have hsettled : d'.Settled :=
      ((reachable_settled (hreach.step hs)).resolve_left hlost).resolve_left hp
    rcases hh.calls hnew r call hcall with hcall' | hm | ⟨effect, -, -, hstill⟩
    · rw [hsettled.calls] at hcall'
      simp at hcall'
    · rw [hdone]
      exact List.mem_append_right _ hm
    · exact absurd (hstill hc) hlost

end

/-- **Requests are conserved**: as long as references are new, each is at one place with its
response or was settled once, pushes are sent once at most, and every step settles and moves
requests only as it may. -/
theorem requests_conserved (env : Env) (inputs : List Input) (d : Driver)
    (hr : (driver env).run (driver env).start inputs = some d) (hids : (requests inputs).Nodup)
    (hp : d.phase ≠ .closed) (hb : d.state.protocol.allocated < 2 ^ 64) :
    Conserved inputs d ∧ ∀ (before : List Input) (input : Input) (d₀ : Driver),
      inputs = before ++ [input] → (driver env).run (driver env).start before = some d₀ →
        Turn env d₀ input d := by
  refine ⟨(balanced_run inputs d hr hids hp hb).conserved hids hr, ?_⟩
  rintro before input d₀ rfl hr₀
  obtain ⟨d₁, hr₁, hs⟩ := Machine.run_concat.mp hr
  cases hr₀.symm.trans hr₁
  have hs : d₀.step env input = some d := hs
  have hids₀ : (requests before).Nodup := by
    rw [requests, List.filterMap_append] at hids
    exact hids.of_append_left
  have hb₀ := Nat.lt_of_le_of_lt (Moves.grows (step_moved hs)) hb
  exact (balanced_run before d₀ hr₀ hids₀ (fun hc => hp (closed_step hs hc)) hb₀).turn hids hr₀ hs hp hb

/-- A call of a joined channel, and the reply to its frame. -/
theorem requests_conserved_reply :
    ∃ d₀ d : Driver, d.owed = [] ∧
      Conserved (joining ++ [.frame (replyFrame "ok" "room" "1" "1"),
        .command (.call 2 "room" "shout" .emptyObject 0), .frame (replyFrame "ok" "room" "1" "2")]) d ∧
      Turn (smallEnv [replyFrame "ok" "room" "1" "1", replyFrame "ok" "room" "1" "2"]) d₀
        (.frame (replyFrame "ok" "room" "1" "2")) d := by
  let env := smallEnv [replyFrame "ok" "room" "1" "1", replyFrame "ok" "room" "1" "2"]
  let before := joining ++ [.frame (replyFrame "ok" "room" "1" "1"),
    .command (.call 2 "room" "shout" .emptyObject 0)]
  obtain ⟨d, hr, hd⟩ := (Option.any_eq_true _ _).mp
    (show ((driver env).run (driver env).start
        (before ++ [.frame (replyFrame "ok" "room" "1" "2")])).any (fun d =>
      d.owed.isEmpty ∧ d.phase = .connected ∧ d.state.protocol.allocated < 2 ^ 64) = true by decide +kernel)
  obtain ⟨howed, hphase, hb⟩ := of_decide_eq_true hd
  obtain ⟨d₀, hr₀, -⟩ := Machine.run_append.mp hr
  obtain ⟨hconserved, hturn⟩ := requests_conserved env _ d hr (by decide) (by rw [hphase]; nofun) hb
  exact ⟨d₀, d, List.isEmpty_iff.mp howed, hconserved, hturn before _ d₀ rfl hr₀⟩

theorem requests_append (a b : List Input) : requests (a ++ b) = requests a ++ requests b :=
  List.filterMap_append

theorem requests_beats (last : UInt64) (n : Nat) : requests (beats last n) = [] := by
  induction n generalizing last with
  | zero => rfl
  | succ n ih => exact ih (Protocol.advance last)

theorem settled_of_unanswering {effects : List Effect} (h : ∀ effect ∈ effects, effect.Unanswering) :
    settled effects = [] := by
  refine List.flatMap_eq_nil_iff.mpr fun effect hm => ?_
  cases effect with
  | answered operation id result => exact (h _ hm).elim
  | cancelled operation id => exact (h _ hm).elim
  | _ => rfl

/-- A call that took the place of another leaves nothing of it. -/
theorem not_owed_of_displaced {d d' : Driver} {call call' : PendingCall} {r : Reference}
    (hone : d.owed.count (.call, call.id) = 1) (hcall : d.state.pendingCalls[r]? = some call)
    (hch : d'.state.channels = d.state.channels)
    (hcalls : d'.state.pendingCalls = d.state.pendingCalls.insert r call') (hne : call'.id ≠ call.id) :
    (.call, call.id) ∉ d'.owed := by
  refine List.count_eq_zero.mp ?_
  have hpings : ∀ d : Driver, Table.total (due PendingPing.owed (.call, call.id)) d.state.pendingPings = 0 :=
    fun d => Table.total_eq_zero.mpr fun r ping _ => rfl
  have hleaves : ∀ d : Driver, Table.total (due PendingLeave.owed (.call, call.id)) d.state.pendingLeaves = 0 := by
    refine fun d => Table.total_eq_zero.mpr fun r leave _ => ?_
    simp only [due, PendingLeave.owed]
    split <;> rfl
  have hi := Table.total_insert (due PendingCall.owed (.call, call.id)) d.state.pendingCalls r call'
  have hshare : Table.shareAt (due PendingCall.owed (.call, call.id)) d.state.pendingCalls r = 1 := by
    simp [Table.shareAt, hcall, due, PendingCall.owed]
  have hnone : due PendingCall.owed (.call, call.id) r call' = 0 := by
    simp [due, PendingCall.owed, hne]
  rw [count_owed, hpings, hleaves] at hone
  rw [count_owed, hpings, hleaves, hch, hcalls]
  omega

/-- A call of a joined channel. -/
def oneCalled : List Input :=
  joining ++ [.frame (replyFrame "ok" "room" "1" "1"), .command (.call 2 "room" "shout" .emptyObject 0)]

theorem advance_to_one : Protocol.advance^[2 ^ 64 - 2] 2 = 1 := by
  have hsplit : 2 ^ 64 - 2 = 1 + (2 ^ 64 - 3) := rfl
  have hlast : Protocol.advance^[2 ^ 64 - 3] 2 = UInt64.ofNat (2 ^ 64 - 1) := by
    apply UInt64.toNat_inj.mp
    rw [advance_iterate (by decide)]
    decide
  rw [hsplit, Function.iterate_add_apply, hlast]
  decide

/-- Once the counter has come around, a call displaces another: its response is dropped. -/
theorem wrapped_call_dropped :
    ¬ ∀ (env : Env) (inputs : List Input) (d : Driver),
      (driver env).run (driver env).start inputs = some d → (requests inputs).Nodup →
      (∀ id ∈ requests inputs, id < 2 ^ 64) → d.phase ≠ .closed →
        (d.owed ++ settled d.trace).Perm (accepted d.trace) := by
  intro hall
  obtain ⟨d, hr, hd⟩ := (Option.any_eq_true _ _).mp
    (show ((driver twoEnv).run (driver twoEnv).start oneCalled).any (fun d =>
      d.phase = .connected ∧ d.transport.sends.isEmpty = true ∧ d.connection.heartbeatReference = none ∧
        d.connection.heartbeatDue ≤ d.clock + 30 ∧ d.state.protocol.nextReference = 2 ∧
        d.state.protocol.channelState "room" = some .joined ∧ d.owed.count (.call, 2) = 1 ∧
        (d.state.pendingCalls["2"]?.map PendingCall.id) = some 2 ∧
        settled d.trace = [(.join, 1)] ∧ (.call, 2) ∈ accepted d.trace) = true by decide +kernel)
  obtain ⟨hphase, hsends, hreference, hdue, hnext, hjoined, hone, hcall, hsettled, haccepted⟩ := of_decide_eq_true hd
  obtain ⟨d₁, hrun, hbeaten, hnext₁⟩ :=
    run_beats _ (2 ^ 64 - 2) hphase (List.isEmpty_iff.mp hsends) hreference hdue
  rw [hnext, advance_to_one] at hnext₁
  have hjoined₁ : d₁.state.protocol.channelState "room" = some .joined := by
    rw [Protocol.channelState, hbeaten.channels]
    exact hjoined
  have htext : d₁.state.protocol.nextText = "2" := by
    rw [Protocol.nextText, hnext₁]
    decide
  obtain ⟨d₂, hstep, hphase₂, hch, hcalls, effects', ht', he'⟩ :=
    call_step _ hbeaten.phase hbeaten.sends hjoined₁ 3 "shout"
  obtain ⟨effects, ht, he⟩ := hbeaten.unanswered
  have hinputs : (driver twoEnv).run (driver twoEnv).start (oneCalled ++ (beats 2 (2 ^ 64 - 2) ++
      [.command (.call 3 "room" "shout" .emptyObject 0)])) = some d₂ :=
    Machine.run_append.mpr ⟨d, hr, Machine.run_append.mpr ⟨d₁, hnext ▸ hrun, Machine.run_cons.mpr ⟨d₂, hstep, rfl⟩⟩⟩
  have hrequests : requests (oneCalled ++ (beats 2 (2 ^ 64 - 2) ++
      [.command (.call 3 "room" "shout" .emptyObject 0)])) = [1, 2, 3] := by
    rw [requests_append, requests_append, requests_beats]
    rfl
  have hperm := hall twoEnv _ d₂ hinputs (by rw [hrequests]; decide) (by rw [hrequests]; decide)
    (by rw [hphase₂]; decide)
  have hm : (.call, 2) ∈ accepted d₂.trace := by
    rw [ht', ht, accepted_append, accepted_append]
    exact List.mem_append_left _ (List.mem_append_left _ haccepted)
  rcases List.mem_append.mp (hperm.mem_iff.mpr hm) with howed | hs
  · obtain ⟨call, hcall, hid⟩ := Option.map_eq_some_iff.mp hcall
    rw [hbeaten.calls, htext] at hcalls
    rw [← hid] at hone howed
    exact not_owed_of_displaced hone hcall (hch.trans hbeaten.records) hcalls (by rw [hid]; decide) howed
  · rw [ht', ht, settled_append, settled_append, settled_of_unanswering he, settled_of_unanswering he',
      hsettled] at hs
    revert hs
    decide

end Driver
end PhoenixChannel.Client
