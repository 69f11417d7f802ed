import ChainReplay.Json.Printer
import ChainReplay.Replay.Result

/-! Reports of replays, as a document and as a page of text. The caller gives the time. -/

namespace ChainReplay

structure Summary where
  blocks : Nat
  completed : Nat
  failed : Nat
  executed : Nat
  skipped : Nat
  tolerated : Nat
  gasUsed : Int

structure Report where
  title : Text
  time : Text
  results : List ReplayResult

namespace Summary

def ofResults (rs : List ReplayResult) : Summary where
  blocks := rs.length
  completed := (rs.filter fun r => r.status = .completed).length
  failed := (rs.filter fun r => r.status = .failed).length
  executed := (rs.flatMap (·.executed)).length
  skipped := (rs.flatMap (·.skipped)).length
  tolerated := (rs.flatMap (·.tolerated)).length
  gasUsed := rs.foldl (fun gas r => gas + r.gasUsed) 0

def figures (s : Summary) : List (Text × Text × Int) :=
  [("blocks", "Blocks", s.blocks), ("completed", "Completed", s.completed),
    ("failed", "Failed", s.failed), ("executed", "Executed", s.executed),
    ("skipped", "Skipped", s.skipped),
    ("tolerated_reverts", "Tolerated reverts", s.tolerated), ("gas_used", "Gas used", s.gasUsed)]

end Summary

namespace Report

def create (title time : Text) (results : List ReplayResult) : Report :=
  ⟨title, time, results.mergeSort fun a b => a.height ≤ b.height⟩

def passed (r : Report) : Bool := r.results.all (·.isOk)

def summary (r : Report) : Summary := Summary.ofResults r.results

def toJson (r : Report) : Json :=
  .object [("title", .text r.title), ("timestamp", .text r.time), ("passed", .bool r.passed),
    ("summary", .object (r.summary.figures.map fun (name, _, n) => (name, .int n))),
    ("blocks", .array (r.results.map ReplayResult.toJson))]

def jsonText (r : Report) : Text := r.toJson.indented 0

def row (cells : List Text) : Text := "| " ++ Text.join " | " cells ++ " |"

def rule (headings : List Text) : Text :=
  let bar (h : Text) : Text := Text.ofChars (List.replicate (max h.length 3) '-')
  "|" ++ Text.join "|" (headings.map bar) ++ "|"

def table (headings : List Text) (rows : List (List Text)) : List Text :=
  row headings :: rule headings :: rows.map row

def blockRow (r : ReplayResult) : List Text :=
  [Text.ofInt r.height, r.status.name, Text.ofNat r.executed.length, Text.ofNat r.skipped.length,
    Text.ofInt r.gasUsed]

def given : Option Text → Option Text
  | some (c :: t) => some (c :: t)
  | _ => none

def failureLines (height : Int) (tolerated : Bool) (f : ReplayFailure) : List Text :=
  let place := if 0 ≤ f.index then "transaction #" ++ Text.ofInt f.index else "setup"
  let mark : Text := if tolerated then " (tolerated)" else ""
  let heading : Text := "### Block " ++ Text.ofInt height ++ ", " ++ place ++ mark
  let transaction : Text := match given f.transaction with
    | some id => "\n- **Transaction:** `" ++ id ++ "`"
    | none => ""
  let revert : List Text := match given f.recordedRevert with
    | some words => ["- **Recorded revert:** " ++ words]
    | none => []
  let error : Text := "- **Error:** " ++ f.message
  heading :: transaction :: error :: (revert ++ [[]])

def blockFailures (r : ReplayResult) : List Text :=
  r.failure.toList.flatMap (failureLines r.height false)
    ++ r.tolerated.flatMap (failureLines r.height true)

def hasFailures (r : ReplayResult) : Bool := r.failure.isSome || !r.tolerated.isEmpty

def markdownLines (r : Report) : List Text :=
  let verdict : Text := if r.passed then "passed" else "FAILED"
  let head : List Text :=
    ["# Block Replay Report: " ++ r.title, "\nGenerated: " ++ r.time ++ "\n", "## Summary\n"]
  let figures := table ["Metric", "Value"]
    (r.summary.figures.map fun (_, heading, n) => [heading, Text.ofInt n])
  let middle : List Text := ["\n**Result: " ++ verdict ++ "**\n", "## Blocks\n"]
  let blocks : List Text :=
    if r.results.isEmpty then ["No blocks replayed."]
    else table ["Block", "Status", "Executed", "Skipped", "Gas"] (r.results.map blockRow)
  let failures : List Text :=
    if r.results.any hasFailures then "## Failures\n" :: r.results.flatMap blockFailures else []
  head ++ figures ++ middle ++ blocks ++ [[]] ++ failures

def markdownText (r : Report) : Text := Text.join "\n" r.markdownLines

end Report

end ChainReplay
