import PhoenixChannel.Client.Lifecycle

/-! The page's lifecycle and the socket.

A page that is hidden or goes offline disconnects its socket, and connects it again when it is back. The
listeners only start tasks, which reach the driver through its command queue while other events happen,
so what a listener sees may be out of date. A socket that was disconnected is still never forgotten, and
one that the application took down is left alone. -/
namespace PhoenixChannel.Web
open PhoenixChannel.Client Library

/-- What a listener's task has in the command queue. A reconnect waits for its disconnect and connects. -/
inductive PageCommand where
  | connect
  | disconnect
  | reconnect
  deriving DecidableEq

def PageCommand.command : PageCommand → Command
  | .connect => .connect
  | .disconnect | .reconnect => .disconnect

/-- A socket with the listeners of its page: what they are to resume, their commands in the queue, and how
many reconnects are between their disconnect and their connect. -/
structure WebLifecycle where
  driver : Driver
  resumeAfterPageShow : Bool
  resumeAfterOnline : Bool
  commands : List PageCommand
  reconnects : Nat

inductive PageInput where
  | pagehide
  | pageshow
  | visibilitychange (visible : Bool)
  | offline
  | online
  /-- The driver takes the oldest command of a listener. -/
  | deliver
  /-- A reconnect whose disconnect was answered goes on. -/
  | resume
  /-- Whatever else happens to the driver. -/
  | driver (input : Input)

def isActive : SocketStatus → Bool
  | .connecting | .connected | .waitingToReconnect => true
  | .disconnected | .closed => false

namespace WebLifecycle

def attach (driver : Driver) : WebLifecycle := ⟨driver, false, false, [], 0⟩

def send (page : WebLifecycle) (command : PageCommand) : WebLifecycle :=
  { page with commands := page.commands ++ [command] }

def status (page : WebLifecycle) : SocketStatus := page.driver.state.socketStatus

def pagehide (page : WebLifecycle) : WebLifecycle :=
  if isActive page.status then { page with resumeAfterPageShow := true }.send .disconnect else page

def pageshow (page : WebLifecycle) : WebLifecycle :=
  if page.resumeAfterPageShow then { page with resumeAfterPageShow := false }.send .connect else page

def visibilitychange (page : WebLifecycle) (visible : Bool) : WebLifecycle :=
  if visible && page.status = .waitingToReconnect then page.send .reconnect else page

def offline (page : WebLifecycle) : WebLifecycle :=
  if isActive page.status then { page with resumeAfterOnline := true }.send .disconnect else page

def online (page : WebLifecycle) : WebLifecycle :=
  if page.resumeAfterOnline then { page with resumeAfterOnline := false }.send .connect else page

def deliver (env : Client.Env) (page : WebLifecycle) : Option WebLifecycle :=
  match page.commands with
  | [] => none
  | command :: commands =>
    (page.driver.step env (.command command.command)).map fun driver =>
      { page with
        driver, commands
        reconnects := if command = .reconnect then page.reconnects + 1 else page.reconnects }

def resume (page : WebLifecycle) : Option WebLifecycle :=
  match page.reconnects with
  | 0 => none
  | reconnects + 1 => some ({ page with reconnects }.send .connect)

def step (env : Client.Env) (page : WebLifecycle) : PageInput → Option WebLifecycle
  | .pagehide => some page.pagehide
  | .pageshow => some page.pageshow
  | .visibilitychange visible => some (page.visibilitychange visible)
  | .offline => some page.offline
  | .online => some page.online
  | .deliver => page.deliver env
  | .resume => page.resume
  | .driver input => (page.driver.step env input).map fun driver => { page with driver }

end WebLifecycle

/-- A page that attached its listeners to the socket of a driver. -/
def webLifecycle (env : Client.Env) (driver : Driver) : Machine WebLifecycle PageInput :=
  ⟨.attach driver, WebLifecycle.step env⟩

/-! ### A socket that was disconnected

The listener that takes the socket down leaves a flag for the event that brings it back, and the
flag turns into a task, the task into a command. -/

/-- The last thing that was told of the socket is that it was disconnected on request. -/
def TakenDown (d : Driver) : Prop := d.socketEvents.getLast? = some (.disconnected .requested)

section
variable {env : Client.Env} {d d' : Driver} {input : Input}

theorem not_takenDown_of_told {d₁ : Driver} {event : SocketEvent} (h : d'.trace = (d₁.emitSocket event).trace)
    (he : event ≠ .disconnected .requested) : ¬ TakenDown d' := by
  rw [TakenDown, (Driver.told_of_trace h).1, List.getLast?_append_cons, List.getLast?_singleton, Option.some.injEq]
  exact he

theorem not_takenDown_of_eq (h : d'.socketEvents = d.socketEvents) (hd : ¬ TakenDown d) : ¬ TakenDown d' := by
  rwa [TakenDown, h]

/-- What is told after a failure is a retry or the end of retries. -/
theorem not_takenDown_afterFailure (env : Client.Env) (d : Driver) (reason : DisconnectReason) :
    ¬ TakenDown (d.afterFailure env reason) := by
  unfold Driver.afterFailure
  dsimp only
  split
  · exact not_takenDown_of_told rfl SocketEvent.noConfusion
  · exact not_takenDown_of_told rfl SocketEvent.noConfusion

/-- Only a disconnect takes a socket down. -/
theorem not_takenDown_of_course (h : Driver.Course env d input d') (hi : input ≠ .command .disconnect)
    (hd : ¬ TakenDown d) : ¬ TakenDown d' := by
  cases h with
  | tick elapsed => exact hd
  | within input d' hw => exact not_takenDown_of_eq hw.emits.socketEvents hd
  | beat d₁ hp hdue hn hw =>
    have hsent : d.Emits Effect.Routine d₁ := (Driver.Emits.of_trace rfl).trans hw.emits
    exact not_takenDown_of_eq (hsent.silent rfl).socketEvents hd
  | rested message d₁ hp ha hw => exact not_takenDown_of_eq (hw.emits.silent rfl).socketEvents hd
  | lost input d₁ reason hp ht hr hb => exact not_takenDown_afterFailure env _ reason
  | disconnect d₁ hi' hc hw => exact absurd rfl hi
  | begin input d₁ attempt hfrom hw => exact not_takenDown_of_told rfl SocketEvent.noConfusion
  | failed input started due error hp => exact not_takenDown_afterFailure env _ (.connect error)
  | made started due transport order hp =>
    have hlives : Driver.Lives env d _ _ := Driver.lives_connectionMade hp transport order
    rw [TakenDown, hlives.told, List.getLast?_append_cons, List.getLast?_singleton]
    exact fun h => by cases h
  | closed input d₁ d' hc hw he =>
    rcases he with rfl | rfl
    · exact not_takenDown_of_told rfl SocketEvent.noConfusion
    · exact not_takenDown_of_told rfl SocketEvent.noConfusion

/-- A socket that was taken down is idle. -/
theorem TakenDown.idle (h : TakenDown d) (hr : (driver env).Reachable d) : d.phase = .idle := by
  obtain ⟨init, hinit⟩ := List.getLast?_eq_some_iff.mp h
  have hrun := Driver.life_told hr
  rw [hinit] at hrun
  obtain ⟨life, -, hstep⟩ := Machine.run_concat.mp hrun
  have hidle : d.life = .idle := by
    cases life with
    | idle | lost _ _ | closed => cases hstep
    | connecting _ | connected | waiting _ => exact (Option.some.inj hstep).symm
  unfold Driver.life at hidle
  cases hp : d.phase with
  | idle => rfl
  | connecting _ _ | connected | waiting _ | closed =>
    rw [hp] at hidle
    cases hidle

end

namespace WebLifecycle

/-- The socket is to be connected again: on an event that the page waits for, after a disconnect that a
reconnect waits for, or by the last of the commands in the queue. -/
def Owed (page : WebLifecycle) : Prop :=
  page.resumeAfterPageShow = true ∨ page.resumeAfterOnline = true ∨ 0 < page.reconnects ∨
    ∃ command, page.commands.getLast? = some command ∧ command ≠ .disconnect

/-- A socket that was taken down is owed a connect, also while commands are on their way. -/
def Mindful (page : WebLifecycle) : Prop := page.Owed ∨ page.commands = [] ∧ ¬ TakenDown page.driver

section
variable {env : Client.Env} {d : Driver} {page page' : WebLifecycle} {input : PageInput}

theorem owed_send {command : PageCommand} (h : command ≠ .disconnect) : (page.send command).Owed :=
  .inr (.inr (.inr ⟨command, List.getLast?_concat, h⟩))

/-- What the page owes stays owed as long as no flag, no task and no command is taken away. -/
theorem Owed.same (h : page.Owed) (hs : page'.resumeAfterPageShow = page.resumeAfterPageShow)
    (ho : page'.resumeAfterOnline = page.resumeAfterOnline) (hr : page.reconnects ≤ page'.reconnects)
    (hc : page'.commands.getLast? = page.commands.getLast?) : page'.Owed := by
  rcases h with h | h | h | ⟨command, h, hne⟩
  · exact .inl (hs.trans h)
  · exact .inr (.inl (ho.trans h))
  · exact .inr (.inr (.inl (Nat.lt_of_lt_of_le h hr)))
  · exact .inr (.inr (.inr ⟨command, hc.trans h, hne⟩))

/-- A command that the driver took. -/
theorem deliver_cases (h : page.deliver env = some page') :
    ∃ command commands driver, page.commands = command :: commands ∧
      page.driver.step env (.command command.command) = some driver ∧
      page' =
        { page with
          driver, commands
          reconnects := if command = .reconnect then page.reconnects + 1 else page.reconnects } := by
  unfold deliver at h
  cases hc : page.commands with
  | nil =>
    rw [hc] at h
    cases h
  | cons command commands =>
    rw [hc] at h
    obtain ⟨driver, hs, rfl⟩ := Option.map_eq_some_iff.mp h
    exact ⟨command, commands, driver, rfl, hs, rfl⟩

/-- A task that resumes sends one connect and is gone. -/
theorem resume_cases (h : page.resume = some page') :
    ∃ reconnects, page.reconnects = reconnects + 1 ∧ page' = { page with reconnects }.send .connect := by
  unfold resume at h
  cases hr : page.reconnects with
  | zero =>
    rw [hr] at h
    cases h
  | succ reconnects =>
    rw [hr] at h
    cases h
    exact ⟨reconnects, rfl, rfl⟩

/-- A connect starts an attempt for a socket that was taken down, and takes none down. -/
theorem not_takenDown_of_connect (hr : (Client.driver env).Reachable d) {d' : Driver}
    (hs : d.step env (.command .connect) = some d') : ¬ TakenDown d' := by
  by_cases hd : TakenDown d
  · simp only [Driver.step, hd.idle hr, Driver.stepIdle, Option.some.injEq] at hs
    cases hs
    exact not_takenDown_of_told rfl SocketEvent.noConfusion
  · exact not_takenDown_of_course (Driver.turned hs) (by simp) hd

/-- A listener does something or nothing. -/
theorem listened {P : WebLifecycle → Prop} {b : Bool} {sent : WebLifecycle}
    (hp : page' = if b then sent else page) (hsent : P sent) (h : P page) : P page' := by
  rw [hp]
  split
  · exact hsent
  · exact h

/-- One case for each input. Only a disconnect of the application's own takes the socket down without a
debt. -/
theorem Mindful.step (hr : (Client.driver env).Reachable page.driver) (h : page.Mindful)
    (hi : input ≠ .driver (.command .disconnect)) (hs : page.step env input = some page') : page'.Mindful := by
  cases input with
  | pagehide =>
    cases hs
    exact listened rfl (.inl (.inl rfl)) h
  | pageshow =>
    cases hs
    exact listened rfl (.inl (owed_send PageCommand.noConfusion)) h
  | visibilitychange visible =>
    cases hs
    exact listened rfl (.inl (owed_send PageCommand.noConfusion)) h
  | offline =>
    cases hs
    exact listened rfl (.inl (.inr (.inl rfl))) h
  | online =>
    cases hs
    exact listened rfl (.inl (owed_send PageCommand.noConfusion)) h
  | deliver =>
    obtain ⟨command, commands, driver, hc, hstep, rfl⟩ := deliver_cases hs
    have howed : page.Owed := h.resolve_right fun hnone => List.cons_ne_nil command commands (hc.symm.trans hnone.1)
    cases commands with
    | cons next commands =>
      refine .inl (howed.same rfl rfl ?_ ?_)
      · dsimp only
        split
        · exact Nat.le_succ _
        · exact Nat.le_refl _
      · rw [hc, List.getLast?_cons_cons]
    | nil =>
      cases command with
      | connect => exact .inr ⟨rfl, not_takenDown_of_connect hr hstep⟩
      | reconnect => exact .inl (.inr (.inr (.inl (Nat.succ_pos _))))
      | disconnect =>
        rcases howed with howed | howed | howed | ⟨command, hlast, hne⟩
        · exact .inl (.inl howed)
        · exact .inl (.inr (.inl howed))
        · exact .inl (.inr (.inr (.inl howed)))
        · rw [hc, List.getLast?_singleton] at hlast
          exact absurd (Option.some.inj hlast).symm hne
  | resume =>
    obtain ⟨reconnects, -, rfl⟩ := resume_cases hs
    exact .inl (owed_send PageCommand.noConfusion)
  | driver input =>
    obtain ⟨driver, hstep, rfl⟩ := Option.map_eq_some_iff.mp hs
    rcases h with h | ⟨hc, hd⟩
    · exact .inl (h.same rfl rfl (Nat.le_refl _) rfl)
    · refine .inr ⟨hc, not_takenDown_of_course (Driver.turned hstep) (fun he => hi (by rw [he])) hd⟩

/-- The driver of a page runs as any other. -/
theorem driver_reachable {Ok : WebLifecycle → PageInput → Prop} (hd : (Client.driver env).Reachable d)
    (h : (webLifecycle env d).Reach Ok page) : (Client.driver env).Reachable page.driver := by
  refine h.invariant (P := fun page => (Client.driver env).Reachable page.driver) hd ?_
  intro page input page' _ hr _ hs
  cases input with
  | pagehide | pageshow | visibilitychange visible | offline | online =>
    cases hs
    exact listened (P := fun page => (Client.driver env).Reachable page.driver) rfl hr hr
  | deliver =>
    obtain ⟨command, commands, driver, -, hstep, rfl⟩ := deliver_cases hs
    exact Machine.Reachable.step (i := .command command.command) hr hstep
  | resume =>
    obtain ⟨reconnects, -, rfl⟩ := resume_cases hs
    exact hr
  | driver input =>
    obtain ⟨driver, hstep, rfl⟩ := Option.map_eq_some_iff.mp hs
    exact Machine.Reachable.step (i := input) hr hstep

theorem mindful (hd : (Client.driver env).Reachable d) (h0 : ¬ TakenDown d)
    (h : (webLifecycle env d).Reach (fun _ input => input ≠ .driver (.command .disconnect)) page) :
    page.Mindful :=
  h.invariant (P := Mindful) (.inr ⟨rfl, h0⟩) fun _ _ _ hr hm hok hs => hm.step (driver_reachable hd hr) hok hs

/-- The connect that an event sends starts an attempt once the driver takes it. -/
theorem connects (hidle : page.driver.phase = .idle)
    (hs : page.step env input = some (page'.send .connect)) (hp : page'.driver = page.driver ∧ page'.commands = []) :
    ∃ resumed, (webLifecycle env d).run page [input, .deliver] = some resumed ∧ resumed.status = .connecting := by
  let attempt : Driver := { page.driver.acknowledge with attempt := 0 }.beginConnect env
  have hstep : page.driver.step env (.command .connect) = some attempt := by
    simp only [Driver.step, hidle, Driver.stepIdle]
    rfl
  have hdeliver : (page'.send .connect).step env .deliver = some { page' with driver := attempt } := by
    have hcommands : (page'.send .connect).commands = [.connect] := by rw [send, hp.2]; rfl
    have hdriver : (page'.send .connect).driver = page.driver := hp.1
    simp only [step, deliver, hcommands, hdriver, PageCommand.command, hstep, Option.map_some]
    rw [← hp.2]
    rfl
  exact ⟨_, Machine.run_cons.mpr ⟨_, hs, Machine.run_cons.mpr ⟨_, hdeliver, rfl⟩⟩, rfl⟩

/-- **A page resumes what it suspends.** In every run in which the application does not disconnect the
socket itself, a socket that was disconnected last is owed a connect; with no command on its way, one of
the two events that the page waits for makes the driver try to connect. -/
theorem page_resumes (hd : (Client.driver env).Reachable d) (h0 : ¬ TakenDown d)
    (h : (webLifecycle env d).Reach (fun _ input => input ≠ .driver (.command .disconnect)) page)
    (hdown : TakenDown page.driver) :
    page.Owed ∧ (page.commands = [] → page.reconnects = 0 →
      ∃ input resumed, (input = .pageshow ∨ input = .online) ∧
        (webLifecycle env d).run page [input, .deliver] = some resumed ∧ resumed.status = .connecting) := by
  have howed : page.Owed := (mindful hd h0 h).resolve_right fun hnone => hnone.2 hdown
  have hidle : page.driver.phase = .idle := hdown.idle (driver_reachable hd h)
  refine ⟨howed, fun hc hr => ?_⟩
  rcases howed with hshow | honline | hreconnects | ⟨command, hlast, -⟩
  · have hs : page.step env .pageshow = some ({ page with resumeAfterPageShow := false }.send .connect) :=
      congrArg some (if_pos hshow)
    obtain ⟨resumed, hrun, hconnecting⟩ := connects (d := d) hidle hs ⟨rfl, hc⟩
    exact ⟨.pageshow, resumed, .inl rfl, hrun, hconnecting⟩
  · have hs : page.step env .online = some ({ page with resumeAfterOnline := false }.send .connect) :=
      congrArg some (if_pos honline)
    obtain ⟨resumed, hrun, hconnecting⟩ := connects (d := d) hidle hs ⟨rfl, hc⟩
    exact ⟨.online, resumed, .inr rfl, hrun, hconnecting⟩
  · exact absurd hr (Nat.ne_of_gt hreconnects)
  · rw [hc] at hlast
    cases hlast

/-! ### A socket that is down

A listener acts on a socket that is active only, and brings back only what a listener took down. -/

/-- The socket is down, and nothing that the listeners did is to change that. -/
structure Quiet (page : WebLifecycle) : Prop where
  down : page.driver.phase = .idle ∨ page.driver.phase = .closed
  pageShow : page.resumeAfterPageShow = false
  online : page.resumeAfterOnline = false
  commands : page.commands = []
  reconnects : page.reconnects = 0

/-- A socket counts as inactive exactly while the loop is idle or closed. -/
theorem inactive_iff (hr : d.Regular) :
    isActive d.state.socketStatus = false ↔ d.phase = .idle ∨ d.phase = .closed := by
  rw [hr.status]
  unfold Driver.life
  cases hp : d.phase with
  | idle => exact iff_of_true rfl (.inl rfl)
  | closed => exact iff_of_true rfl (.inr rfl)
  | connecting _ _ | connected | waiting _ =>
    exact iff_of_false (fun h => by cases h) (fun h => by rcases h with h | h <;> cases h)

/-- Only a connect ends that a socket is down. -/
theorem down_of_course {input : Input} {d' : Driver} (h : Driver.Course env d input d')
    (hi : input ≠ .command .connect) (hp : d.phase = .idle ∨ d.phase = .closed) :
    d'.phase = .idle ∨ d'.phase = .closed := by
  have hdown : ∀ {phase}, d.phase = phase → phase = .idle ∨ phase = .closed := fun he => he ▸ hp
  cases h with
  | tick elapsed => exact hp
  | within input d' hw => rwa [hw.phase]
  | beat d₁ hp' hdue hn hw => rcases hdown hp' with h | h <;> cases h
  | rested message d₁ hp' ha hw => rcases hdown hp' with h | h <;> cases h
  | lost input d₁ reason hp' ht hr hb => rcases hdown hp' with h | h <;> cases h
  | disconnect d₁ hi' hc hw => exact absurd (hp.resolve_left hi') hc
  | begin input d₁ attempt hfrom hw =>
    rcases hfrom with ⟨-, he, -⟩ | ⟨due, hp', -, -, -⟩
    · exact absurd he hi
    · rcases hdown hp' with h | h <;> cases h
  | failed input started due error hp' => rcases hdown hp' with h | h <;> cases h
  | made started due transport order hp' => rcases hdown hp' with h | h <;> cases h
  | closed input d₁ d' hc hw he =>
    rcases he with rfl | rfl
    · exact .inr rfl
    · exact .inr rfl

/-- No listener acts on a socket that is down and owed nothing. -/
theorem Quiet.step (h : page.Quiet) (hr : (Client.driver env).Reachable page.driver)
    (hi : input ≠ .driver (.command .connect)) (hs : page.step env input = some page') : page'.Quiet := by
  have hinactive : isActive page.status = false := (inactive_iff (Driver.reachable_regular hr)).mpr h.down
  have hsame : ∀ {sent : WebLifecycle} {b : Bool}, b = false → page' = (if b then sent else page) → page'.Quiet := by
    intro sent b hb hp
    rw [hp, hb]
    exact h
  cases input with
  | pagehide =>
    cases hs
    exact hsame hinactive rfl
  | pageshow =>
    cases hs
    exact hsame h.pageShow rfl
  | visibilitychange visible =>
    cases hs
    have hne : page.status ≠ .waitingToReconnect := fun he => by
      rw [he] at hinactive
      cases hinactive
    have hunseen : (visible && decide (page.status = .waitingToReconnect)) = false := by
      rw [decide_eq_false hne, Bool.and_false]
    exact hsame hunseen rfl
  | offline =>
    cases hs
    exact hsame hinactive rfl
  | online =>
    cases hs
    exact hsame h.online rfl
  | deliver =>
    obtain ⟨command, commands, driver, hc, -, -⟩ := deliver_cases hs
    cases hc.symm.trans h.commands
  | resume =>
    obtain ⟨reconnects, hn, -⟩ := resume_cases hs
    cases hn.symm.trans h.reconnects
  | driver input =>
    obtain ⟨driver, hstep, rfl⟩ := Option.map_eq_some_iff.mp hs
    have hconnect : input ≠ .command .connect := fun he => hi (by rw [he])
    exact { h with down := down_of_course (Driver.turned hstep) hconnect h.down }

/-- **A page wakes nothing.** Where the socket is down, the page has nothing to resume and no command of
its listeners is on its way, the socket stays down, whatever happens to the page, until the application
connects it. -/
theorem page_wakes_nothing (hd : (Client.driver env).Reachable d) (h : (webLifecycle env d).Reachable page)
    (hs : isActive page.status = false)
    (hf : page.resumeAfterPageShow = false ∧ page.resumeAfterOnline = false)
    (hc : page.commands = [] ∧ page.reconnects = 0)
    (hpath : (webLifecycle env d).Path (fun _ input => input ≠ .driver (.command .connect)) page page') :
    isActive page'.status = false ∧ page'.commands = [] := by
  have hregular : ∀ {page}, (webLifecycle env d).Reachable page → page.driver.Regular :=
    fun h => Driver.reachable_regular (driver_reachable hd h)
  have hquiet : page.Quiet := ⟨(inactive_iff (hregular h)).mp hs, hf.1, hf.2, hc.1, hc.2⟩
  obtain ⟨hr, hq⟩ : (webLifecycle env d).Reachable page' ∧ page'.Quiet :=
    hpath.invariant (P := fun page => (webLifecycle env d).Reachable page ∧ page.Quiet)
      (fun _ _ _ hp hok hs => ⟨hp.1.step hs, hp.2.step (driver_reachable hd hp.1) hok hs⟩) ⟨h, hquiet⟩
  exact ⟨(inactive_iff (hregular hr)).mpr hq.down, hq.commands⟩

end

/-- A page that is hidden while its socket connects, and is shown again. -/
theorem page_resumes_hidden : ∃ page resumed : WebLifecycle, TakenDown page.driver ∧
    (webLifecycle (smallEnv []) (Driver.start (smallEnv []))).run page [.pageshow, .deliver] = some resumed ∧
      resumed.status = .connecting := by
  obtain ⟨page, hreach, hcheck⟩ := Machine.reach_of_run (webLifecycle (smallEnv []) (Driver.start (smallEnv [])))
    (fun _ input => input ≠ .driver (.command .disconnect)) [.pagehide, .deliver]
    (fun page => page.driver.socketEvents.getLast? = some (.disconnected .requested) ∧ page.commands = [] ∧
      page.reconnects = 0 ∧ page.resumeAfterOnline = false)
    (by simp) (by decide +kernel)
  obtain ⟨hdown, hc, hr, honline⟩ := of_decide_eq_true hcheck
  have h0 : ¬ TakenDown (Driver.start (smallEnv [])) := by
    show ¬ (Driver.start (smallEnv [])).socketEvents.getLast? = some (.disconnected .requested)
    decide +kernel
  obtain ⟨-, hresumes⟩ := page_resumes .start h0 hreach hdown
  obtain ⟨input, resumed, hinput, hrun, hconnecting⟩ := hresumes hc hr
  rcases hinput with rfl | rfl
  · exact ⟨page, resumed, hdown, hrun, hconnecting⟩
  · have hnothing : page.online = page := if_neg (by rw [honline]; exact Bool.false_ne_true)
    have hnone : (webLifecycle (smallEnv []) (Driver.start (smallEnv []))).run page [.online, .deliver] = none := by
      simp only [Machine.run, webLifecycle, step, hnothing, deliver, hc, Option.bind_some, Option.bind_none]
    cases hnone.symm.trans hrun

/-- The page comes and goes after the application disconnected the socket. -/
theorem page_wakes_nothing_disconnected : ∃ page page' : WebLifecycle,
    page'.status = page.status ∧ page.driver.socketEvents.length = 2 ∧ isActive page'.status = false := by
  let M := webLifecycle (smallEnv []) (Driver.start (smallEnv []))
  obtain ⟨page, hreach, hcheck⟩ := M.reachable_of_run [.driver (.command .disconnect)]
    (fun page => page.driver.socketEvents.length = 2 ∧ isActive page.status = false ∧
      (page.resumeAfterPageShow = false ∧ page.resumeAfterOnline = false) ∧ page.commands = [] ∧ page.reconnects = 0)
    (by decide +kernel)
  obtain ⟨hevents, hs, hf, hc⟩ := of_decide_eq_true hcheck
  have hhide : M.step page .pagehide = some page := congrArg some (if_neg (by rw [hs]; exact Bool.false_ne_true))
  have hshow : M.step page .pageshow = some page := congrArg some (if_neg (by rw [hf.1]; exact Bool.false_ne_true))
  have hpath : M.Path (fun _ input => input ≠ .driver (.command .connect)) page page :=
    .step (.step .refl PageInput.noConfusion hhide) PageInput.noConfusion hshow
  exact ⟨page, page, rfl, hevents, (page_wakes_nothing .start hreach hs hf hc hpath).1⟩

end WebLifecycle
end PhoenixChannel.Web
