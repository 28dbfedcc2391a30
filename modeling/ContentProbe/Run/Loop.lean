import ContentProbe.Node.Reply
import ContentProbe.Record.Ledger
import ContentProbe.Rota
import ContentProbe.Run.Turn
import ContentProbe.Settings.Probe
import ContentProbe.Time.Elapsed

/-!
The loop of probes. A round resets the node, waits for the instant at which it may begin, and makes an
upload and downloads as the mode says; each probe that comes to a result has its record kept. The loop goes
on after a reset that failed and after a probe whose queue was closed, and ends at a probe that failed
otherwise and at a record that cannot be kept.
-/

namespace ContentProbe

open ContentProbe.Time

/-- Why a probe comes to no result: a fault of its run, or one of what drives it. -/
inductive ProbeFault (ε : Type) where
  | run (f : RunFault)
  | failed (e : ε)

/-- What the probe loop works with: a clock, a shutdown that cancels it, the reset of a node, a driver of probes,
and a sink for records. -/
structure Station (σ ε : Type) where
  now : σ → Nat
  isCancelled : σ → Bool
  reset : σ → Except Node.Fault Nat × σ
  waitUntil : Nat → σ → σ
  upload : σ → Except (ProbeFault ε) Upload × σ
  download : String → σ → Except (ProbeFault ε) Download × σ
  keep : Record → σ → Except ε Unit × σ

namespace Station

variable {σ ε : Type}

def uploadOnce (w : Station σ ε) (run : RunInfo) (s : σ) : Except ε Unit × σ :=
  match w.upload s with
  | (.error (.run .channelClosed), s) => (.ok (), s)
  | (.error (.failed e), s) => (.error e, s)
  | (.ok u, s) => w.keep (.upload (.of run u)) s

def downloadOnce (w : Station σ ε) (run : RunInfo) (contentId : String) (s : σ) :
    Except ε Unit × σ :=
  match w.download contentId s with
  | (.error (.run .channelClosed), s) => (.ok (), s)
  | (.error (.failed e), s) => (.error e, s)
  | (.ok d, s) => w.keep (.download (.of run Rota.source d)) s

/-- Downloads one after the other, each of the next content id, until the loop is cancelled. -/
def downloads (w : Station σ ε) (run : RunInfo) : Nat → Rota → σ → Except ε Rota × σ
  | 0, rota, s => (.ok rota, s)
  | count + 1, rota, s =>
      if w.isCancelled s then (.ok rota, s)
      else
        let (contentId, rota) := rota.take
        match w.downloadOnce run contentId s with
        | (.error e, s) => (.error e, s)
        | (.ok (), s) => downloads w run count rota s

def probes (w : Station σ ε) (settings : ProbeSettings) (run : RunInfo) (rota : Rota) (s : σ) :
    Except ε Rota × σ :=
  match if settings.mode.uploads then w.uploadOnce run s else (.ok (), s) with
  | (.error e, s) => (.error e, s)
  | (.ok (), s) =>
      if settings.mode.downloads then w.downloads run settings.downloadsPerIteration rota s
      else (.ok rota, s)

/-- Rounds, of which the next one begins at `next` or later. -/
def rounds (w : Station σ ε) (settings : ProbeSettings) (run : RunInfo) :
    Nat → Nat → Rota → σ → Except ε Unit × σ
  | 0, _, _, s => (.ok (), s)
  | count + 1, next, rota, s =>
      let s := w.waitUntil next (w.reset s).2
      if w.isCancelled s then (.ok (), s)
      else
        let next := w.now s + settings.interval * millisecond
        match w.probes settings run rota s with
        | (.error e, s) => (.error e, s)
        | (.ok rota, s) =>
            if w.isCancelled s then (.ok (), s) else rounds w settings run count next rota s

/-- The number of rounds; without a bound there are as many as a word can count. -/
def roundsOf (settings : ProbeSettings) : Nat :=
  if settings.maxIterations = 0 then Nat.pow 2 64 else settings.maxIterations

def runLoop (w : Station σ ε) (settings : ProbeSettings) (run : RunInfo) (s : σ) :
    Except ε Unit × σ :=
  w.rounds settings run (roundsOf settings) (w.now s) (.ofIds settings.contentIds) s

end Station

end ContentProbe
