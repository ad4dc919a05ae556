import PlexPaper.LifecyclePrograms
import PlexPaper.Semaphore

/-! Stops over RCON. `stop_server_rcon` checks the cooldown, connects, sends the command and
records it in separate awaits, and holds the one permit from before the first of them to after
the last. What a task has done says how far it has got; `Moves` lists everything that one of
its operations can do. Only the holder of the permit gets any further, so what it has checked
still holds when it acts on it. -/
namespace PlexPaper
open Tasks Server

/-- How far a task has got in a stop over RCON. -/
inductive RconStop where
  | idle
  | admitted
  | asked (last : Instant)
  | cooled
  | connected
  | acknowledged
  | measured (reading : Instant)
  | recorded
  deriving DecidableEq

namespace RconStop

def advance (stop : RconStop) (op : Op) (reply : op.Reply) : RconStop :=
  match stop, op, reply with
  | .idle, .acquireRcon, _ => .admitted
  | .admitted, .read .rconLastStop, none => .cooled
  | .admitted, .read .rconLastStop, some last => .asked last
  | .admitted, .releaseRcon, _ => .idle
  | .asked last, .now, now => if now - last ≥ RCON_COOLDOWN then .cooled else .admitted
  | .cooled, .rconConnect, true => .connected
  | .cooled, .rconConnect, false => .admitted
  | .connected, .rconCommand, true => .acknowledged
  | .acknowledged, .now, reading => .measured reading
  | .measured _, .write .rconLastStop _, _ => .recorded
  | .connected, .rconClose, _ | .recorded, .rconClose, _ => .admitted
  | stop, _, _ => stop

/-- Between these and the next operation of the stop a task may do anything else. -/
def resting : RconStop → Bool
  | .idle | .connected | .recorded => true
  | .admitted | .asked _ | .cooled | .acknowledged | .measured _ => false

/-- Which operations a task performs when it has got this far. -/
def permits : RconStop → Op → Prop
  | stop, .acquireRcon => stop = .idle
  | stop, .releaseRcon => stop = .admitted
  | stop, .rconConnect => stop = .cooled
  | stop, .rconCommand => stop = .connected
  | stop, .rconClose => stop = .connected ∨ stop = .recorded
  | stop, .write .rconLastStop value => ∃ reading, stop = .measured reading ∧ value = some reading
  | .admitted, .read .rconLastStop | .asked _, .now | .acknowledged, .now => True
  | stop, _ => stop.resting

/-- The permit is held from the first operation to the last. -/
def holds : RconStop → Bool
  | .idle => false
  | _ => true

/-- A session is open from the connection to its close. -/
def session : RconStop → Bool
  | .connected | .acknowledged | .measured _ | .recorded => true
  | .idle | .admitted | .asked _ | .cooled => false

end RconStop

/-- Every task starts outside of a stop over RCON. -/
abbrev rconStops : Protocol Op Op.Reply Entry where
  Stage := RconStop
  advance := RconStop.advance
  permits := RconStop.permits
  enter _ := .idle

/-- Everything a permitted operation can do to a stop. -/
inductive Moves : RconStop → (op : Op) → op.Reply → RconStop → Prop where
  | takes : Moves .idle .acquireRcon () .admitted
  | fresh : Moves .admitted (.read .rconLastStop) none .cooled
  | asks (last : Instant) : Moves .admitted (.read .rconLastStop) (some last) (.asked last)
  | checks (last now : Instant) :
      Moves (.asked last) .now now (if now - last ≥ RCON_COOLDOWN then .cooled else .admitted)
  | connects : Moves .cooled .rconConnect true .connected
  | refused : Moves .cooled .rconConnect false .admitted
  | acknowledges : Moves .connected .rconCommand true .acknowledged
  | fails : Moves .connected .rconCommand false .connected
  | measures (reading : Instant) : Moves .acknowledged .now reading (.measured reading)
  | records (reading : Instant) :
      Moves (.measured reading) (.write .rconLastStop (some reading)) () .recorded
  | closes {stop : RconStop} (session : stop = .connected ∨ stop = .recorded) :
      Moves stop .rconClose () .admitted
  | gives : Moves .admitted .releaseRcon () .idle
  | keeps {stop : RconStop} {op : Op} {reply : op.Reply} (resting : stop.resting)
      (other : ¬ op.OverRcon) : Moves stop op reply stop

/-- A resting stop stays as it is through all other operations. -/
theorem RconStop.quiet_resting {stop : RconStop} (resting : stop.resting) (op : Op)
    (other : ¬ op.OverRcon) : rconStops.QuietAt stop op := by
  cases op with
  | acquireRcon | releaseRcon | rconConnect | rconCommand | rconClose => exact absurd trivial other
  | write cell value =>
    cases cell with
    | rconLastStop => exact absurd trivial other
    | _ => cases stop <;> first | exact ⟨rfl, fun _ => rfl⟩ | cases resting
  | read cell => cases cell <;> cases stop <;> first | exact ⟨rfl, fun _ => rfl⟩ | cases resting
  | _ => cases stop <;> first | exact ⟨rfl, fun _ => rfl⟩ | cases resting

/-- What a permitted operation can do. -/
theorem RconStop.moves {stop : RconStop} {op : Op} (permitted : stop.permits op) (reply : op.Reply) :
    Moves stop op reply (stop.advance op reply) := by
  have rests (resting : stop.resting) (other : ¬ op.OverRcon) :
      Moves stop op reply (stop.advance op reply) := by
    have same : stop.advance op reply = stop := (quiet_resting resting op other).2 reply
    rw [same]
    exact .keeps resting other
  cases op with
  | acquireRcon => cases permitted; exact .takes
  | releaseRcon => cases permitted; exact .gives
  | rconConnect =>
    cases permitted
    cases reply with
    | true => exact .connects
    | false => exact .refused
  | rconCommand =>
    cases permitted
    cases reply with
    | true => exact .acknowledges
    | false => exact .fails
  | rconClose =>
    rcases permitted with rfl | rfl
    · exact .closes (.inl rfl)
    · exact .closes (.inr rfl)
  | write cell value =>
    cases cell with
    | rconLastStop =>
      obtain ⟨reading, rfl, rfl⟩ := permitted
      exact .records reading
    | _ => cases stop <;> exact rests permitted id
  | read cell =>
    cases cell with
    | rconLastStop =>
      cases stop with
      | admitted =>
        cases reply with
        | none => exact .fresh
        | some last => exact .asks last
      | _ => exact rests permitted id
    | _ => cases stop <;> exact rests permitted id
  | now =>
    cases stop with
    | asked last => exact .checks last reply
    | acknowledged => exact .measures reply
    | _ => exact rests permitted id
  | _ => cases stop <;> exact rests permitted id

/-! ## The source keeps to it -/

section

variable {config : Config}

private theorem resting_unbothered {stop : RconStop} (resting : stop.resting) :
    Unbothered rconStops.toDiscipline stop :=
  fun op _ other => RconStop.quiet_resting resting op other

private theorem resting_bookkept {stop : RconStop} (resting : stop.resting) :
    Bookkept rconStops.toDiscipline stop :=
  fun op bookkeeping => RconStop.quiet_resting resting op bookkeeping.not_overRcon

/-- An update of the state leaves a resting stop alone. -/
private theorem resting_update {stop : RconStop} (resting : stop.resting) (current : Option State)
    (new : State) : UpdateKeeps rconStops.toDiscipline stop config current new := by
  have quiet (op : Op) (other : ¬ op.OverRcon) := RconStop.quiet_resting resting op other
  cases current with
  | none =>
    exact updateStateFrom_none_keeps (resting_unbothered resting) (quiet _ id) (fun _ => quiet _ id)
      (fun _ => resting_bookkept resting) (quiet _ id)
  | some current =>
    exact updateStateFrom_some_keeps (resting_unbothered resting) (quiet _ id) (fun _ => quiet _ id)
      (fun _ => resting_bookkept resting) (quiet _ id)

/-- Whatever a stop over RCON is answered, it gives the permit back at its end. -/
theorem stopServerRcon_serialises (config : Config) :
    (stopServerRcon config).Keeps rconStops.toDiscipline .idle := by
  have released : (do perform .releaseRcon; return false : ServerM Bool).Follows
      rconStops.toDiscipline .admitted fun _ ended => ended = .idle := ⟨rfl, fun _ => rfl⟩
  -- The update and the wait come between recording the command and closing the session.
  have settled : (do
      let _ ← updateState config .stopping
      sleep QUIRK_RCON_GRACE_TIME
      perform .rconClose
      perform .releaseRcon
      return true : ServerM Bool).Follows rconStops.toDiscipline .recorded fun _ ended => ended = .idle := by
    refine Program.follows_bind.mpr ((resting_update rfl none .stopping).follows fun _ => ?_)
    refine Program.follows_bind.mpr ((sleep_keeps (resting_unbothered rfl) _).follows fun _ => ?_)
    exact ⟨.inr rfl, fun _ => ⟨rfl, fun _ => rfl⟩⟩
  have session (cooledDown : Bool) : (do
      if !cooledDown then
        perform .releaseRcon
        return false
      if !(← perform .rconConnect) then
        perform .releaseRcon
        return false
      sleep QUIRK_RCON_GRACE_TIME
      if !(← perform .rconCommand) then
        perform .rconClose
        perform .releaseRcon
        return false
      perform (.write .rconLastStop (some (← perform .now)))
      let _ ← updateState config .stopping
      sleep QUIRK_RCON_GRACE_TIME
      perform .rconClose
      perform .releaseRcon
      return true : ServerM Bool).Follows rconStops.toDiscipline
        (if cooledDown then .cooled else .admitted) fun _ ended => ended = .idle := by
    cases cooledDown with
    | false => exact released
    | true =>
      refine Program.follows_bind.mpr ⟨rfl, fun connected => Program.follows_pure.mpr ?_⟩
      cases connected with
      | false => exact released
      | true =>
        refine Program.follows_bind.mpr ((sleep_keeps (resting_unbothered rfl) _).follows fun _ => ?_)
        refine Program.follows_bind.mpr ⟨rfl, fun acknowledged => Program.follows_pure.mpr ?_⟩
        cases acknowledged with
        | false => exact ⟨.inl rfl, fun _ => released⟩
        | true => exact ⟨trivial, fun reading => ⟨⟨reading, rfl, rfl⟩, fun _ => settled⟩⟩
  refine .ite (fun _ => .pure) fun _ => ⟨rfl, fun _ => ⟨trivial, fun last => ?_⟩⟩
  cases last with
  | none => exact session true
  | some last =>
    refine ⟨trivial, fun now => ?_⟩
    have checked := session (decide (now - last ≥ RCON_COOLDOWN))
    simp only [decide_eq_true_eq] at checked
    exact checked

/-- Every task of the proxy returns outside of a stop over RCON. -/
theorem body_serialises (config : Config) (entry : Entry) :
    (entry.body config).Keeps rconStops.toDiscipline .idle :=
  body_keeps_of_rcon (fun op _ _ _ other => RconStop.quiet_resting rfl op other)
    (stopServerRcon_serialises config) (fun update _ _ => resting_update rfl update.1 update.2) entry
    fun _ => ⟨resting_bookkept rfl, resting_update rfl none .started⟩

/-- Every task of the proxy keeps to the order of a stop over RCON. -/
theorem lifecycle_rconStops (config : Config) : (lifecycle config).Obeys rconStops :=
  fun entry _ => (body_serialises config entry).follows fun _ => trivial

end

/-! ## One holder of the permit -/

/-- The permits an operation leaves. -/
def Op.newPermits : Op → Nat → Nat
  | .acquireRcon, permits => permits - 1
  | .releaseRcon, permits => permits + 1
  | _, permits => permits

theorem Op.newPermits_of_not_overRcon {op : Op} (other : ¬ op.OverRcon) (permits : Nat) :
    op.newPermits permits = permits := by
  cases op <;> first | rfl | exact absurd trivial other

section

variable {config : Config} {world after : World} {op : Op} {succeeds : Bool}

/-- Only taking a permit and giving it back change how many there are. -/
theorem World.execute_permits {reply : op.Reply}
    (executed : world.execute op succeeds = some (reply, after)) :
    after.server.rconPermits = op.newPermits world.server.rconPermits := by
  rw [execute_newServer executed]
  cases op with
  | write cell value => cases cell <;> rfl
  | compareExchange current new =>
    rw [Op.newServer]
    split <;> rfl
  | _ => rfl

/-- A permit is only taken where one is left. -/
theorem World.acquire_waits (executed : world.execute .acquireRcon succeeds = some ((), after)) :
    0 < world.server.rconPermits := by
  have performed := perform_of_execute executed
  simp only [World.perform] at performed
  split at performed
  · assumption
  · cases performed

/-- By this moment the cooldown after the last stop is over. -/
def CooledAt (last : Option Instant) (moment : Instant) : Prop :=
  ∀ time ∈ last, time + RCON_COOLDOWN ≤ moment

theorem CooledAt.mono {last : Option Instant} {moment later : Instant} (cooled : CooledAt last moment)
    (order : moment ≤ later) : CooledAt last later :=
  fun time member => Nat.le_trans (cooled time member) order

/-- A cooldown is some time, so what it has elapsed since lies in the past. -/
theorem cooledAt_of_elapsed {last now : Instant} (elapsed : now - last ≥ RCON_COOLDOWN) :
    CooledAt (some last) now := by
  have positive : 0 < RCON_COOLDOWN := Nat.mul_pos (by omega) (by omega)
  have before : last ≤ now := Nat.le_of_lt (Nat.lt_of_sub_pos (Nat.lt_of_lt_of_le positive elapsed))
  rintro time ⟨⟩
  exact Nat.add_le_of_le_sub' before elapsed

/-- What a task has read and checked is still so. -/
def RconStop.Agrees (world : World) : RconStop → Prop
  | .asked last => world.server.rconLastStop = some last
  | .cooled | .connected | .acknowledged => CooledAt world.server.rconLastStop world.clock
  | .measured reading => reading ≤ world.clock ∧ CooledAt world.server.rconLastStop reading
  | .idle | .admitted | .recorded => True

/-- Time alone makes nothing of it untrue. -/
theorem RconStop.Agrees.later {stop : RconStop} (agrees : stop.Agrees world)
    (last : after.server.rconLastStop = world.server.rconLastStop) (order : world.clock ≤ after.clock) :
    stop.Agrees after := by
  cases stop with
  | asked time => exact last.trans agrees
  | cooled | connected | acknowledged =>
    change CooledAt after.server.rconLastStop after.clock
    rw [last]
    exact CooledAt.mono agrees order
  | measured reading =>
    change reading ≤ after.clock ∧ CooledAt after.server.rconLastStop reading
    rw [last]
    exact ⟨Nat.le_trans agrees.1 order, agrees.2⟩
  | idle | admitted | recorded => trivial

/-- The one permit is there or with one task, what that task has checked is still so, and no
stop was recorded in the future. -/
structure Serialised (world : World) (stops : List RconStop) : Prop where
  permit : Semaphore.Balanced RconStop.holds 1 world.server.rconPermits stops
  agrees : ∀ stop ∈ stops, stop.Agrees world
  past : ∀ time ∈ world.server.rconLastStop, time ≤ world.clock

namespace Serialised

variable {front back stops : List RconStop} {stop next : RconStop}

/-- A task moves on while the record and the clock stay. -/
theorem proceeds (serialised : Serialised world (front ++ stop :: back))
    (last : after.server.rconLastStop = world.server.rconLastStop) (clock : after.clock = world.clock)
    (exchanged : after.server.rconPermits + (if next.holds then 1 else 0) =
      world.server.rconPermits + (if stop.holds then 1 else 0))
    (agrees : next.Agrees after) : Serialised after (front ++ next :: back) where
  permit := serialised.permit.moves exchanged
  agrees other member := by
    rcases List.mem_append.mp member with before | behind
    · exact (serialised.agrees other (by simp [before])).later last (Nat.le_of_eq clock.symm)
    · rcases List.mem_cons.mp behind with rfl | behind
      · exact agrees
      · exact (serialised.agrees other (by simp [behind])).later last (Nat.le_of_eq clock.symm)
  past := by
    rw [last, clock]
    exact serialised.past

/-- The holder of the permit records its stop, and nobody else has checked anything. -/
theorem records {reading : Instant} (serialised : Serialised world (front ++ .measured reading :: back))
    (last : after.server.rconLastStop = some reading) (clock : after.clock = world.clock)
    (permits : after.server.rconPermits = world.server.rconPermits) :
    Serialised after (front ++ .recorded :: back) where
  permit := serialised.permit.moves (by rw [permits]; rfl)
  agrees other member := by
    have free := serialised.permit.others_free rfl
    have idle (absent : other.holds = false) : other.Agrees after := by
      cases other with
      | idle => trivial
      | _ => cases absent
    rcases List.mem_append.mp member with before | behind
    · exact idle (free other (.inl before))
    · rcases List.mem_cons.mp behind with rfl | behind
      · trivial
      · exact idle (free other (.inr behind))
  past := by
    have measured := (serialised.agrees (.measured reading) (by simp)).1
    rw [last, clock]
    rintro time ⟨⟩
    exact measured

/-- Tasks join outside of a stop. -/
theorem joins (serialised : Serialised world stops) {joined : List RconStop}
    (idle : ∀ stop ∈ joined, stop = .idle) : Serialised world (stops ++ joined) where
  permit := serialised.permit.joins fun stop member => by rw [idle stop member]; rfl
  agrees stop member := by
    rcases List.mem_append.mp member with old | new
    · exact serialised.agrees stop old
    · rw [idle stop new]
      trivial
  past := serialised.past

end Serialised

/-- A permitted operation leaves the stops serialised. -/
theorem Serialised.run {front back : List RconStop} {stop : RconStop} {reply : op.Reply}
    (serialised : Serialised world (front ++ stop :: back)) (permitted : stop.permits op)
    (executed : world.execute op succeeds = some (reply, after)) :
    Serialised after (front ++ stop.advance op reply :: back) := by
  have permits := World.execute_permits executed
  have clock := World.execute_clock executed
  have unwritten := World.execute_get executed .rconLastStop
  have agreed := serialised.agrees stop (by simp)
  have moved := RconStop.moves permitted reply
  generalize stop.advance op reply = next at moved
  cases moved with
  | takes =>
    have waited := World.acquire_waits executed
    have kept := unwritten (by simp)
    refine serialised.proceeds kept clock ?_ trivial
    simp only [Op.newPermits] at permits
    simp only [RconStop.holds, ↓reduceIte, Bool.false_eq_true]
    omega
  | fresh =>
    have kept := unwritten (by simp)
    have nothing : none = world.server.rconLastStop := World.read_reply executed
    refine serialised.proceeds kept clock (by rw [permits]; rfl) ?_
    change CooledAt (after.server.get .rconLastStop) after.clock
    rw [kept]
    intro time member
    cases nothing.trans member
  | asks last =>
    have kept := unwritten (by simp)
    have read : some last = world.server.rconLastStop := World.read_reply executed
    exact serialised.proceeds kept clock (by rw [permits]; rfl) (kept.trans read.symm)
  | checks last now =>
    have kept := unwritten (by simp)
    have reading := World.now_reply executed
    split
    · rename_i cooled
      refine serialised.proceeds kept clock (by rw [permits]; rfl) ?_
      change CooledAt (after.server.get .rconLastStop) after.clock
      have recorded : world.server.get .rconLastStop = some last := agreed
      rw [kept, recorded, clock, ← reading]
      exact cooledAt_of_elapsed cooled
    · exact serialised.proceeds kept clock (by rw [permits]; rfl) trivial
  | connects | acknowledges =>
    have kept := unwritten (by simp)
    exact serialised.proceeds kept clock (by rw [permits]; rfl)
      (RconStop.Agrees.later agreed kept (Nat.le_of_eq clock.symm))
  | refused =>
    have kept := unwritten (by simp)
    exact serialised.proceeds kept clock (by rw [permits]; rfl) trivial
  | fails =>
    have kept := unwritten (by simp)
    exact serialised.proceeds kept clock (by rw [permits]; rfl)
      (RconStop.Agrees.later agreed kept (Nat.le_of_eq clock.symm))
  | closes session =>
    have kept := unwritten (by simp)
    refine serialised.proceeds kept clock ?_ trivial
    rcases session with rfl | rfl <;> (rw [permits]; rfl)
  | measures reading =>
    have kept := unwritten (by simp)
    have read := World.now_reply executed
    refine serialised.proceeds kept clock (by rw [permits]; rfl) ⟨?_, ?_⟩
    · exact Nat.le_of_eq (read.trans clock.symm)
    · change CooledAt (after.server.get .rconLastStop) reading
      rw [kept, read]
      exact agreed
  | records reading =>
    have written : after.server.rconLastStop = some reading := by
      rw [World.execute_newServer executed]
      rfl
    exact serialised.records written clock (by rw [permits]; rfl)
  | gives =>
    have kept := unwritten (by simp)
    refine serialised.proceeds kept clock ?_ trivial
    rw [permits]
    simp [Op.newPermits, RconStop.holds]
  | keeps resting other =>
    have kept := unwritten fun value writes => other (by rw [writes]; trivial)
    rw [Op.newPermits_of_not_overRcon other] at permits
    exact serialised.proceeds kept clock (by rw [permits])
      (RconStop.Agrees.later agreed kept (Nat.le_of_eq clock.symm))

/-- Whatever tasks run, and in whatever order, their stops are serialised. -/
theorem serialised_of_reached {proxy : Proxy}
    (reached : (lifecycle config).Reaches (fun _ _ => True) Proxy.boot proxy) :
    Serialised proxy.world (rconStops.stages proxy) := by
  refine rconStops.invariant (lifecycle_rconStops config) Serialised ?_ ?_ ?_ ?_ reached
  · exact ⟨rfl, by simp, by rintro time ⟨⟩⟩
  · intro world stops entry _ serialised
    exact serialised.joins (by simp)
  · intro world stops event after acted serialised
    have server := World.outside_server acted
    have order := World.outside_clock acted
    have last : after.server.rconLastStop = world.server.rconLastStop := by rw [server]
    refine ⟨by rw [server]; exact serialised.permit, ?_, ?_⟩
    · exact fun stop member => (serialised.agrees stop member).later last order
    · rw [last]
      exact fun time member => Nat.le_trans (serialised.past time member) order
  · intro proxy index answer task op reply after front back _ _ _ permitted executed _ serialised
    refine (serialised.run permitted executed).joins fun stop member => ?_
    obtain ⟨entry, -, rfl⟩ := List.mem_map.mp member
    rfl

end

end PlexPaper
