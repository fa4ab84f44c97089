/-! Updates that wait in a queue.

Senders append updates to a queue, and one receiver takes them from its front. What the
receiver's state will be once the queue is drained is `queue.foldl update state`; `Ready`
says that every update finds a state it is meant for when its turn comes. Both are kept by
a receiver that takes the next update, and a sender needs to know the drained state only. -/
namespace PhoenixChannel.Library.Backlog
variable {σ μ : Type} (update : σ → μ → σ) (Meets : σ → μ → Prop)

/-- Each update of the queue meets the state it comes to. -/
def Ready : σ → List μ → Prop
  | _, [] => True
  | state, next :: rest => Meets state next ∧ Ready (update state next) rest

variable {update Meets} {state : σ} {first last : μ} {queue : List μ}

theorem Ready.head (h : Ready update Meets state (first :: queue)) : Meets state first := h.1

theorem Ready.tail (h : Ready update Meets state (first :: queue)) :
    Ready update Meets (update state first) queue := h.2

/-- What is sent last has to meet the state once all before it is drained. -/
theorem Ready.append (h : Ready update Meets state queue) (hm : Meets (queue.foldl update state) last) :
    Ready update Meets state (queue ++ [last]) := by
  induction queue generalizing state with
  | nil => exact ⟨hm, trivial⟩
  | cons update' rest ih => exact ⟨h.1, ih h.2 hm⟩

/-- Drained of one more. -/
theorem drained_append : (queue ++ [last]).foldl update state = update (queue.foldl update state) last := by
  rw [List.foldl_append]
  rfl

end PhoenixChannel.Library.Backlog
