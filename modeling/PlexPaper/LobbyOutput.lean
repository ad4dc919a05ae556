import PlexPaper.LobbyHandover

/-! What a lobby client gets. A frame is written poll by poll, and the loop that a ready
server ends may be dropped between two of them: then the next frame begins inside the
one before. -/
namespace PlexPaper.Lobby
open Tasks Outcome Program

/-- What has been made of the client's side: the bytes that were sent, the frames whose
writing has come to its end, and the one that is being written, with how far that has
got. The payload stored for replaying is kept as it was read. -/
structure Output where
  sent : List UInt8 := []
  completed : List (List UInt8) := []
  inFlight : Option (List UInt8 × Nat) := none
  cut : Bool := false
  stored : List (List UInt8) := []

namespace Output

/-- What has been sent of the frame that is being written. -/
def part (output : Output) : List UInt8 :=
  match output.inFlight with
  | some (frame, offset) => frame.take offset
  | none => []

/-- The socket takes that many bytes of the frame. -/
def write (output : Output) (frame : List UInt8) (offset count : Nat) : Output :=
  if frame.length ≤ offset + count then
    { output with
      sent := output.sent ++ frame.drop offset
      completed := output.completed ++ [frame]
      inFlight := none }
  else
    { output with
      sent := output.sent ++ (frame.drop offset).take count
      inFlight := some (frame, offset + count) }

/-- The frame is the one that is being written, if one is, and this is where it goes on. -/
def GoesOn (output : Output) (frame : List UInt8) (offset : Nat) : Prop :=
  output.inFlight = if offset = 0 then none else some (frame, offset)

end Output

section

variable {JoinGame : Type} (lib : Codecs)

/-- Only whole packets are written: those that the encoder gives, and those that are
stored. One is begun when none is being written. -/
abbrev clientOutput : Discipline (Op JoinGame) Op.Reply where
  Stage := Output
  advance
    | output, .write .client frame offset, some (taken + 1) => output.write frame offset (taken + 1)
    | output, .ready, some _ =>
      { output with cut := output.cut || output.inFlight.isSome, inFlight := none }
    | output, .readPayload, stored => { output with stored := output.stored ++ stored }
    | output, _, _ => output
  permits
    | output, .write .client frame offset => offset < frame.length ∧ output.GoesOn frame offset ∧
        (EncodedFrame lib frame ∨ frame ∈ output.stored)
    | _, _ => True

end

/-- Every completed frame is a whole packet, and what was sent is those frames, in order,
and the part of the next one; it is more than that if one was cut short. -/
structure Output.Consistent (lib : Codecs) (output : Output) : Prop where
  packets : ∀ frame ∈ output.completed, EncodedFrame lib frame ∨ frame ∈ output.stored
  whole : output.cut = false → output.sent = output.completed.flatten ++ output.part
  more : output.cut = true →
    output.completed.flatten.length + output.part.length < output.sent.length
  started : ∀ frame offset, output.inFlight = some (frame, offset) → 0 < offset ∧ 0 < frame.length

section

variable {JoinGame : Type} {lib : Codecs} {output : Output} {frame : List UInt8} {offset : Nat}

/-- A frame that goes on has its first bytes sent. -/
theorem Output.GoesOn.part_eq (goesOn : output.GoesOn frame offset) :
    output.part = frame.take offset := by
  unfold Output.part
  rw [goesOn]
  by_cases start : offset = 0
  · simp [start]
  · simp [start]

/-- Writing on keeps that. -/
theorem consistent_write (consistent : output.Consistent lib) (count : Nat) (more : 0 < count)
    (inside : offset < frame.length) (goesOn : output.GoesOn frame offset)
    (packet : EncodedFrame lib frame ∨ frame ∈ output.stored) :
    (output.write frame offset count).Consistent lib := by
  have part := goesOn.part_eq
  unfold Output.write
  split
  · rename_i complete
    refine ⟨fun other member => ?_, fun uncut => ?_, fun cut => ?_, nofun⟩
    · rcases List.mem_append.mp member with earlier | last
      · exact consistent.packets other earlier
      · rw [List.mem_singleton.mp last]
        exact packet
    · have whole := consistent.whole uncut
      simp only [Output.part, List.append_nil, List.flatten_append, List.flatten_singleton]
      rw [whole, part, List.append_assoc, List.take_append_drop]
    · have longer := consistent.more cut
      rw [part, List.length_take] at longer
      simp only [Output.part, List.flatten_append, List.flatten_singleton, List.length_append,
        List.length_drop, List.length_nil]
      omega
  · rename_i incomplete
    have written : ({ output with
        sent := output.sent ++ (frame.drop offset).take count,
        inFlight := some (frame, offset + count) } : Output).part =
        frame.take offset ++ (frame.drop offset).take count := List.take_add
    refine ⟨consistent.packets, fun uncut => ?_, fun cut => ?_, ?_⟩
    · have whole := consistent.whole uncut
      rw [written, ← List.append_assoc, ← part, ← whole]
    · have longer := consistent.more cut
      rw [written, List.length_append, ← part]
      dsimp only
      rw [List.length_append]
      omega
    · rintro _ _ ⟨⟩
      omega

/-- What is permitted keeps it. -/
theorem consistent_advance (op : Op JoinGame) (reply : op.Reply)
    (permitted : (clientOutput lib).permits output op) (consistent : output.Consistent lib) :
    Output.Consistent lib ((clientOutput lib).advance output op reply) := by
  cases op with
  | write peer frame offset =>
    cases peer with
    | server => exact consistent
    | client =>
      obtain ⟨inside, goesOn, packet⟩ := permitted
      match reply with
      | some (taken + 1) =>
        exact consistent_write consistent (taken + 1) (Nat.succ_pos taken) inside goesOn packet
      | some 0 => exact consistent
      | none => exact consistent
  | ready =>
    match reply with
    | none => exact consistent
    | some result =>
      refine ⟨consistent.packets, fun uncut => ?_, fun cut => ?_, nofun⟩
      · obtain ⟨uncut, still⟩ := Bool.or_eq_false_iff.mp uncut
        have landed : output.inFlight = none := by simpa using still
        have whole := consistent.whole uncut
        rw [Output.part, landed] at whole
        exact whole
      · cases was : output.cut with
        | true =>
          have longer := consistent.more was
          simp only [Output.part, List.length_nil]
          omega
        | false =>
          -- The frame that is given up has had its first bytes sent.
          obtain ⟨⟨frame, offset⟩, flying⟩ : ∃ flying, output.inFlight = some flying := by
            simpa [was, Option.isSome_iff_exists] using cut
          obtain ⟨begun, nonempty⟩ := consistent.started frame offset flying
          have whole := congrArg List.length (consistent.whole was)
          rw [List.length_append, Output.part, flying, List.length_take] at whole
          simp only [Output.part, List.length_nil]
          omega
  | readPayload =>
    exact ⟨fun frame member => (consistent.packets frame member).imp_right (List.mem_append_left _),
      consistent.whole, consistent.more, consistent.started⟩
  | _ => exact consistent

/-- A write leaves the frame where the next one goes on, or at its end. -/
private theorem goesOn_write (output : Output) {count : Nat} (more : 0 < count) :
    (offset + count < frame.length → (output.write frame offset count).GoesOn frame (offset + count)) ∧
    (frame.length ≤ offset + count → (output.write frame offset count).inFlight = none) ∧
    (output.write frame offset count).stored = output.stored := by
  unfold Output.write
  split
  · rename_i complete
    exact ⟨fun incomplete => absurd incomplete (by omega), fun _ => rfl, rfl⟩
  · rename_i incomplete
    refine ⟨fun _ => ?_, fun complete => absurd complete incomplete, rfl⟩
    rw [Output.GoesOn, if_neg (by omega)]

/-- A frame is written from its first byte to its last. -/
theorem writeAll_yields (landed : output.inFlight = none)
    (packet : EncodedFrame lib frame ∨ frame ∈ output.stored) :
    Yields (clientOutput lib) output (writeAll .client frame : LobbyM JoinGame Unit)
      fun _ (ended : Output) => ended.inFlight = none ∧ ended.stored = output.stored := by
  suffices ∀ polls offset (now : Output), frame.length ≤ polls + offset →
      (offset < frame.length → now.GoesOn frame offset) →
      (frame.length ≤ offset → now.inFlight = none) → now.stored = output.stored →
      Yields (clientOutput lib) now (writeFrom .client frame polls offset : LobbyM JoinGame Unit)
        fun _ (ended : Output) => ended.inFlight = none ∧ ended.stored = output.stored from
    this _ 0 output (Nat.le_refl _) (fun _ => by simpa [Output.GoesOn] using landed) (fun _ => landed) rfl
  intro polls
  induction polls with
  | zero => exact fun offset now enough _ lands same => .pure ⟨lands (by omega), same⟩
  | succ polls ih =>
    intro offset now enough goesOn lands same
    rw [writeFrom]
    split
    · rename_i complete
      exact .pure ⟨lands complete, same⟩
    · rename_i incomplete
      have inside : offset < frame.length := by omega
      have polled : Yields (clientOutput lib) now
          (perform (.write .client frame offset) : LobbyM JoinGame (Option Nat))
          fun reply (ended : Output) =>
            ∀ taken, reply = some (taken + 1) → ended = now.write frame offset (taken + 1) := by
        refine .perform ⟨inside, goesOn inside, same ▸ packet⟩ fun reply taken took => ?_
        subst took
        rfl
      refine polled.bind fun reply ended written => ?_
      rcases reply with _ | _ | taken
      · exact .throw
      · exact .throw
      · obtain rfl := written taken rfl
        obtain ⟨further, complete, stored⟩ := goesOn_write now (Nat.succ_pos taken)
        exact ih _ _ (by omega) further complete (stored.trans same)

/-- The lobby keeps to that. -/
theorem handsOver_clientOutput {ModList : Type} (wire : LobbyWire ModList JoinGame)
    (clientInfo : ClientInfo) (backend : Backend) :
    HandsOver wire clientInfo backend (clientOutput wire.toCodecs)
      fun output : Output => output.inFlight = none where
  background op quiet output landed := by
    cases op with
    | write peer => cases peer with
      | client => exact quiet.elim
      | server => exact ⟨trivial, fun _ => landed⟩
    | read | tryRead | elapsed | ready | readPayload | relay => first
      | exact quiet.elim
      | exact ⟨trivial, fun _ => landed⟩
    | _ => exact ⟨trivial, fun _ => landed⟩
  elapsed _ _ := ⟨trivial, fun _ => rfl⟩
  writes frame encoded output landed :=
    (writeAll_yields landed (.inl encoded)).mono fun _ _ facts => facts.1
  races program stage settles held :=
    Follows.mono (Follows.race (fun _ (ended : Output) => ended.inFlight = none) (fun _ => True)
      (fun _ _ _ _ _ => trivial) (fun _ _ => trivial)
      (fun _ reply _ waiting => by
        obtain rfl : reply = none := waiting
        rfl)
      (fun _ reply _ _ won => by
        obtain rfl : reply = some _ := won
        rfl)
      trivial (settles stage held)) fun result ended calms won => by
        rcases won with rfl | rfl
        · exact calms () rfl
        · exact calms
  reads _ landed := ⟨trivial, fun _ => landed⟩
  drains _ landed := ⟨trivial, fun _ => landed⟩
  delivers output landed := by
    have asks (output : Output) : Yields (clientOutput wire.toCodecs) output
        (perform .readPayload : LobbyM JoinGame (List (List UInt8)))
        fun payload (ended : Output) => ended.inFlight = output.inFlight ∧
          ∀ frame ∈ payload, frame ∈ ended.stored :=
      .perform trivial fun payload => ⟨rfl, fun _ => List.mem_append_right _⟩
    have delivers (payload : List (List UInt8)) (output : Output) (landed : output.inFlight = none)
        (stored : ∀ frame ∈ payload, frame ∈ output.stored) : Yields (clientOutput wire.toCodecs) output
        (replayLoginPayload.deliverAll payload : LobbyM JoinGame Unit)
        fun _ (ended : Output) => ended.inFlight = none := by
      induction payload generalizing output with
      | nil => exact .pure landed
      | cons frame payload ih =>
        refine (writeAll_yields landed (.inr (stored frame List.mem_cons_self))).bind ?_
        rintro _ ended ⟨landed, same⟩
        exact ih ended landed fun other member => same ▸ stored other (List.mem_cons_of_mem _ member)
    refine (asks output).bind fun payload ended ⟨same, stored⟩ => ?_
    refine (delivers payload ended (same.trans landed) stored).bind fun _ ended landed => ?_
    exact (asks ended).bind fun payload ended ⟨same, _⟩ => .pure (same.trans landed)
  relays _ _ _ _ _ landed := ⟨trivial, fun _ => landed⟩

/-- A frame is cut short by the result of waiting for the server. -/
private theorem cut_advance (done : (op : Op JoinGame) × op.Reply) :
    Output.cut ((clientOutput lib).advance output done.1 done.2) = true ↔
      output.cut = true ∨ (∃ result, done = ⟨.ready, some result⟩) ∧ output.inFlight ≠ none := by
  obtain ⟨op, reply⟩ := done
  have other (unready : ∀ result, (⟨op, reply⟩ : (op : Op JoinGame) × op.Reply) ≠ ⟨.ready, some result⟩) :
      output.cut = true ↔ output.cut = true ∨
        (∃ result, (⟨op, reply⟩ : (op : Op JoinGame) × op.Reply) = ⟨.ready, some result⟩) ∧
          output.inFlight ≠ none := by
    simp [unready]
  cases op with
  | ready =>
    match reply with
    | none => exact other nofun
    | some result => simp [Option.isSome_iff_ne_none]
  | write peer frame offset =>
    cases peer with
    | server => exact other nofun
    | client =>
      match reply with
      | some (taken + 1) =>
        have same : (output.write frame offset (taken + 1)).cut = output.cut := by
          unfold Output.write
          split <;> rfl
        simp [same]
      | some 0 => exact other nofun
      | none => exact other nofun
  | _ => exact other nofun

/-- So whether one has been is a matter of when that result came. -/
theorem cut_iff (log : List ((op : Op JoinGame) × op.Reply)) (output : Output) :
    Output.cut ((clientOutput lib).after output log) = true ↔ output.cut = true ∨
      ∃ early result late, log = early ++ ⟨.ready, some result⟩ :: late ∧
        Output.inFlight ((clientOutput lib).after output early) ≠ none := by
  induction log generalizing output with
  | nil => simp [Discipline.after]
  | cons done log ih =>
    refine (ih ((clientOutput lib).advance output done.1 done.2)).trans ?_
    rw [cut_advance, or_assoc]
    refine or_congr_right ⟨?_, ?_⟩
    · rintro (⟨⟨result, rfl⟩, flying⟩ | ⟨early, result, late, rfl, flying⟩)
      · exact ⟨[], result, log, rfl, flying⟩
      · exact ⟨done :: early, result, late, rfl, flying⟩
    · rintro ⟨_ | ⟨first, early⟩, result, late, same, flying⟩
      · obtain ⟨rfl, rfl⟩ := List.cons.inj same
        exact .inl ⟨⟨result, rfl⟩, flying⟩
      · obtain ⟨rfl, rfl⟩ := List.cons.inj same
        exact .inr ⟨early, result, late, rfl, flying⟩

end

section

variable {ModList JoinGame : Type}

/-- Whenever the socket has taken the last byte of a packet, every packet that has been
written to the client is whole, and the client has got just those packets, one behind
the other, if and only if the result of waiting for the server has never come while one
was being written. -/
theorem lobby_output_whole_iff {wire : LobbyWire ModList JoinGame} {config : Config}
    {clientInfo : ClientInfo} {inbound : TcpStream} {backend : Backend} {rounds : Nat} {client : Client}
    {queue frame : List UInt8} {offset taken : Nat}
    {log late : List ((op : Op JoinGame) × op.Reply)}
    {rest : Program (Op JoinGame) Op.Reply (Outcome Unit)}
    (performed : (serve wire config rounds clientInfo inbound backend client queue).run.Performs
      (log ++ ⟨.write .client frame offset, some (taken + 1)⟩ :: late) rest)
    (completes : frame.length ≤ offset + (taken + 1)) :
    let after := (clientOutput wire.toCodecs).after ({} : Output)
    let output : Output := after (log ++ [⟨.write .client frame offset, some (taken + 1)⟩])
    (∀ packet ∈ output.completed, EncodedFrame wire.toCodecs packet ∨ packet ∈ output.stored) ∧
    (output.sent = output.completed.flatten ↔
      ∀ early result late, log = early ++ ⟨.ready, some result⟩ :: late →
        Output.inFlight (after early) = none) := by
  intro after output
  have follows : (serve wire config rounds clientInfo inbound backend client queue).run.Follows
      (clientOutput wire.toCodecs) ({} : Output) _ :=
    (handsOver_clientOutput wire clientInfo backend).serve_settles rounds inbound client queue {} rfl
  rw [List.append_cons] at performed
  obtain ⟨mid, written⟩ := performed.front
  have start : Output.Consistent wire.toCodecs {} := ⟨nofun, fun _ => rfl, nofun, nofun⟩
  have consistent : output.Consistent wire.toCodecs :=
    follows.invariant (Output.Consistent wire.toCodecs)
      (fun _ op reply permitted held => consistent_advance op reply permitted held) start written
  have last : output = (after log).write frame offset (taken + 1) := List.foldl_concat ..
  have landed : output.part = [] := by
    rw [last, Output.write, if_pos completes]
    rfl
  have uncut : output.cut = (after log).cut := by
    rw [last, Output.write, if_pos completes]
  refine ⟨consistent.packets, ?_⟩
  calc output.sent = output.completed.flatten
    _ ↔ output.cut = false := by
      constructor
      · intro same
        by_contra cut
        have longer := consistent.more (by simpa using cut)
        rw [same] at longer
        omega
      · intro whole
        simpa [landed] using consistent.whole whole
    _ ↔ ¬ (after log).cut = true := by
      rw [uncut, Bool.not_eq_true]
    _ ↔ _ := by
      rw [cut_iff log {}]
      constructor
      · intro never early result late same
        by_contra flying
        exact never (.inr ⟨early, result, late, same, flying⟩)
      · rintro never (⟨⟨⟩⟩ | ⟨early, result, late, same, flying⟩)
        exact flying (never early result late same)

end

/-- The server is not ready yet, and the socket takes one byte at a time. -/
def hesitate (op : Op Unit) : op.Reply :=
  match op with
  | .ready => none
  | .write _ _ _ => some 1
  | op => cooperate op

/-- The server is ready when one byte of the first keep-alive has been taken. -/
def hesitant : List ((op : Op Unit) → op.Reply) :=
  .replicate 9 cooperate ++ .replicate 6 hesitate ++ .replicate 12 cooperate

/-- What the socket of the client has taken with an operation. -/
def Op.wrote {JoinGame : Type} (done : (op : Op JoinGame) × op.Reply) : Option (List UInt8 × Nat × Nat) :=
  match done with
  | ⟨.write .client frame offset, some (taken + 1)⟩ => some (frame, offset, taken)
  | _ => none

/-- A write that is found in the log. -/
theorem wrote_only {JoinGame : Type} {frame : List UInt8} {offset taken : Nat}
    (other : (op : Op JoinGame) × op.Reply) (wrote : Op.wrote other = some (frame, offset, taken)) :
    other = ⟨.write .client frame offset, some (taken + 1)⟩ := by
  unfold Op.wrote at wrote
  split at wrote
  · cases wrote
    rfl
  · cases wrote

private theorem hesitant_wrote :
    ((servePlayer.run.answered hesitant).1[26]?.bind Op.wrote) = some ([2, 0, 0x59], 0, 2) := by
  decide +kernel

/-- The title begins inside the keep-alive then. -/
theorem lobby_output_cut :
    ¬ ∀ (ModList JoinGame : Type) (wire : LobbyWire ModList JoinGame) (config : Config)
        (clientInfo : ClientInfo) (inbound : TcpStream) (backend : Backend) (rounds : Nat)
        (client : Client) (queue frame : List UInt8) (offset taken : Nat)
        (log late : List ((op : Op JoinGame) × op.Reply))
        (rest : Program (Op JoinGame) Op.Reply (Outcome Unit)),
      (serve wire config rounds clientInfo inbound backend client queue).run.Performs
        (log ++ ⟨.write .client frame offset, some (taken + 1)⟩ :: late) rest →
      frame.length ≤ offset + (taken + 1) →
      let output : Output := (clientOutput wire.toCodecs).after ({} : Output)
        (log ++ [⟨.write .client frame offset, some (taken + 1)⟩])
      output.sent = output.completed.flatten := by
  intro whole
  have same := whole _ _ _ _ _ _ _ _ _ _ _ _ _ _ _ _ (performs_found wrote_only hesitant_wrote)
    (by decide)
  exact absurd same (by decide +kernel)

private theorem servePlayer_wrote :
    ((servePlayer.run.answered (.replicate 27 cooperate)).1[20]?.bind Op.wrote) =
      some ([2, 0, 0x59], 0, 2) := by
  decide +kernel

/-- Is the wait over with this operation? -/
def Op.isReady {JoinGame : Type} (done : (op : Op JoinGame) × op.Reply) : Bool :=
  match done with
  | ⟨.ready, some _⟩ => true
  | _ => false

private theorem servePlayer_ready : ∀ place < 20,
    ((servePlayer.run.answered (.replicate 27 cooperate)).1[place]?.any Op.isReady) = true →
      ((clientOutput plainLobbyWire.toCodecs).after ({} : Output)
        ((servePlayer.run.answered (.replicate 27 cooperate)).1.take place)).inFlight = none := by
  decide +kernel

private theorem servePlayer_landed {early late : List ((op : Op Unit) × op.Reply)} {result : Except Unit Unit}
    (split : (servePlayer.run.answered (.replicate 27 cooperate)).1.take 20 =
      early ++ ⟨.ready, some result⟩ :: late) :
    ((clientOutput plainLobbyWire.toCodecs).after ({} : Output) early).inFlight = none := by
  have place := congrArg (·[early.length]?) split
  have before := congrArg (List.take early.length) split
  have inside : early.length < 20 := by
    have bound := congrArg List.length split
    rw [List.length_take, List.length_append, List.length_cons] at bound
    omega
  rw [List.take_left, List.take_take, Nat.min_eq_left inside.le] at before
  simp only [List.getElem?_take_of_lt inside, List.getElem?_append_right (Nat.le_refl _), Nat.sub_self,
    List.getElem?_cons_zero] at place
  rw [← before]
  exact servePlayer_ready early.length inside (by rw [place]; rfl)

/-- A server that is ready before the first keep-alive cuts nothing short. -/
theorem lobby_output_whole_quick :
    let log := (servePlayer.run.answered (.replicate 27 cooperate)).1.take 20
    let output : Output := (clientOutput plainLobbyWire.toCodecs).after ({} : Output)
      (log ++ [⟨.write .client [2, 0, 0x59] 0, some 3⟩])
    (∀ packet ∈ output.completed,
      EncodedFrame plainLobbyWire.toCodecs packet ∨ packet ∈ output.stored) ∧
    output.sent = output.completed.flatten := by
  intro log output
  obtain ⟨frames, whole_iff⟩ := lobby_output_whole_iff (performs_found wrote_only servePlayer_wrote) (by decide)
  exact ⟨frames, whole_iff.mpr fun _ _ _ split => servePlayer_landed split⟩

end PlexPaper.Lobby
