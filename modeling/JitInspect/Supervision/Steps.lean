import JitInspect.Supervision.Basic

/-!
# The steps of a supervision

What happens to a supervised command arrives as a sequence of happenings. The exit of the command is
noticed some time after it has happened; a cancellation in between still counts as one of a running
command, but nothing is left to kill then.
-/

namespace JitInspect

namespace Supervision

/-- What can happen while a command is supervised. -/
inductive Happening where
  /-- A piece of a stream arrives. -/
  | piece (isError : Bool) (bytes : Bytes)
  /-- A stream ends. -/
  | close (isError : Bool)
  /-- The command exits. Its streams may stay open. -/
  | exit (code : Int)
  /-- The token is cancelled. -/
  | cancel
  /-- Some time passes: an exit is noticed. -/
  | pause
  /-- So much time passes that streams which are open after the exit are given up. -/
  | expiry
  /-- Nobody waits for the report any more. -/
  | abandon

/-! ### Ends -/

section Ends

/-- Kills the command and waits for it, unless it was never started or has exited. -/
def kill (s : Supervision) : Supervision :=
  if !s.started || s.exitCode.isSome then s
  else
    match s.subject.killAnswer with
    | .refused => { s with kills := s.kills + 1 }
    | .killed | .gone => { s with kills := s.kills + 1, waits := s.waits + 1 }

/-- Ends with a failure. -/
def fail (s : Supervision) (why : Text) : Supervision :=
  let output := joined s.lines
  let process := if s.started then some s.subject.process else none
  kill { s with
    log := failureRecord s.subject.command why :: s.log
    ending := some (.report { output, errors := diagnosis s.subject why output, process }) }

/-- Whether the token is cancelled. -/
def isCancelled (s : Supervision) : Bool := s.token = some true

/-- Ends with what the command has printed, unless the token was cancelled. -/
def succeed (s : Supervision) : Supervision :=
  if s.isCancelled then s.fail Failure.cancelledMessage
  else
    { s with ending := some (.report
        { output := joined s.lines
          errors := joined (s.lines.filter (·.isError))
          process := some s.subject.process
          code := s.exitCode }) }

/-- Once the exit has been noticed, a failed stream or the ends of both streams end the
supervision. -/
def settle (s : Supervision) : Supervision :=
  if s.noticed && s.ending.isNone then
    match s.fault with
    | some f => s.fail f.message
    | none => if s.allClosed then s.succeed else s
  else s

end Ends

/-! ### Steps -/

section Steps

/-- Notices the exit, if it has happened. -/
def notice (s : Supervision) : Supervision :=
  if s.exitCode.isSome then settle { s with noticed := true } else s

/-- Gives up streams that are still open. -/
def expire (s : Supervision) : Supervision :=
  let s := s.notice
  if s.noticed && s.ending.isNone then
    succeed { s with log := openRecord s.subject.process :: s.log }
  else s

/-- The token is cancelled. Before the exit is noticed this ends the supervision; afterwards it
decides how the supervision will end. -/
def cancel (s : Supervision) : Supervision :=
  match s.token with
  | none => s
  | some _ =>
    let s := { s with token := some true }
    if s.noticed then s else s.fail Failure.cancelledMessage

/-- Takes one step. Nothing happens any more once the supervision has ended. -/
def step (s : Supervision) (h : Happening) : Supervision :=
  if s.ending.isSome then s
  else
    match h with
    | .piece isError bytes => settle (s.receive isError bytes)
    | .close isError => settle (s.closeStream isError)
    | .exit code => { s with exitCode := s.exitCode <|> some code }
    | .cancel => s.cancel
    | .pause => s.notice
    | .expiry => s.expire
    | .abandon => kill { s with ending := some .abandoned }

/-- A stream, or the end of one that is not there. -/
def streamOf (isThere : Bool) : Stream := { reading := if isThere then .going else .closed }

/-- Starts a command, unless the token is cancelled before. -/
def start (j : Subject) (token : Option Bool) : Supervision :=
  let s : Supervision :=
    { subject := j, token, output := streamOf j.hasOutput, errors := streamOf j.hasErrors,
      log := [startRecord j.command] }
  if s.isCancelled then s.fail Failure.cancelledMessage
  else
    match j.startFault with
    | some why => s.fail why
    | none =>
      let s := { s with started := true }
      if j.cancelledAtStart then
        match s.token with
        | none => s
        | some _ => fail { s with token := some true } Failure.cancelledMessage
      else s

/-- Supervises a command to which the given things happen. -/
def run (j : Subject) (token : Option Bool) (hs : List Happening) : Supervision :=
  hs.foldl step (start j token)

end Steps

end Supervision

end JitInspect
