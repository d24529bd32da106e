import BoardBench.Console.Normal
import BoardBench.Telemetry.Table

/-!
# The benchmark window

A benchmark prints its table between two marker lines. The scanner is fed one line at a time:

  outside --(begin marker)--> inside --(end marker)--> finished

Inside, every line that is not blank and holds no marker is captured. A window that never closed
yields no rows, since cut-off output looks like that of a crashed benchmark.
-/
namespace BoardBench.Console

open Telemetry (Row parseRows)

def beginMarker : String := "=== Benchmark Begins ==="
def endMarker : String := "=== Benchmark End ==="

/-- What the scanner made of a line. -/
inductive Scan where
  | outside
  | opened
  | captured
  | blank
  | closed
  | done
  deriving Repr, DecidableEq

inductive Phase where
  | outside
  | inside
  | finished
  deriving Repr, DecidableEq

structure Window where
  phase : Phase := .outside
  captured : List String := []
  deriving Repr, DecidableEq

namespace Window

/-- Feeds one line that is already normalized. A begin marker inside the window changes nothing,
and it wins over an end marker on the same line. -/
def feedNormal (window : Window) (line : String) : Scan × Window :=
  match window.phase with
  | .finished => (.done, window)
  | .outside =>
    if contains line beginMarker then (.opened, { window with phase := .inside })
    else (.outside, window)
  | .inside =>
    if contains line beginMarker then (.opened, window)
    else if contains line endMarker then (.closed, { window with phase := .finished })
    else if line.isEmpty then (.blank, window)
    else (.captured, { window with captured := window.captured ++ [line] })

def feed (window : Window) (line : String) : Scan × Window :=
  window.feedNormal (normalize line)

def isFinished (window : Window) : Bool :=
  window.phase == .finished

def isInside (window : Window) : Bool :=
  window.phase == .inside

def rows (window : Window) : List Row :=
  if window.isFinished then parseRows window.captured else []

/-- The window after all lines, read to the end. -/
def feedAll (window : Window) (lines : List String) : Window :=
  lines.foldl (fun state line => (state.feed line).2) window

/-- The window after the lines up to the one that closes it. -/
def feedUntilClosed (window : Window) : List String → Window
  | [] => window
  | line :: rest =>
    let next := (window.feed line).2
    if next.isFinished then next else next.feedUntilClosed rest

end Window

end BoardBench.Console
