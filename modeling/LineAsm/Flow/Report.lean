import LineAsm.Flow.Analysis
import LineAsm.Text.Columns
import LineAsm.Text.Json

/-!
# Reports of an analysis

What an analysis found, as a text for people and as a JSON document.
-/

set_option autoImplicit false

namespace LineAsm.Flow

/-- What a report says about a program. -/
structure Report where
  lines : Nat
  reachable : Nat
  blocks : List Block
  edges : List Edge
  /-- The labels with their lines, by line. -/
  labels : List (String × Nat)
  mix : List (Family × Nat)
  unreachable : List Nat
  deriving DecidableEq, Repr, Inhabited

/-- The report of a program. -/
def report (program : Program) : Report :=
  let analysis := analyze program
  { lines := program.size
    reachable := analysis.reachable.length
    blocks := analysis.blocks program
    edges := analysis.edges
    labels := program.labels.byLine
    mix := analysis.mix program
    unreachable := analysis.unreachable program }

namespace Report

/-- A line of the summary: what is counted, and the count. -/
def summaryLine (name value : String) : String :=
  "  " ++ Text.alignLeft 11 name ++ " : " ++ value ++ "\n"

/-- The report for people. -/
def text (report : Report) : String :=
  String.join
    ["Analysis summary:\n",
      summaryLine "lines" (toString report.lines),
      summaryLine "reachable" (toString report.reachable),
      summaryLine "blocks" (toString report.blocks.length),
      summaryLine "edges" (toString report.edges.length),
      summaryLine "unreachable" (Text.bracketed report.unreachable),
      String.join (report.mix.map fun (family, count) =>
        summaryLine family.name.toLower (toString count)),
      "Blocks:\n",
      String.join (report.blocks.map fun block =>
        "  [" ++ toString block.start ++ ", " ++ toString block.stop ++ ")\n"),
      "Edges:\n",
      String.join (report.edges.map fun edge =>
        "  " ++ Text.alignRight 4 (toString edge.source) ++ " -> "
          ++ Text.alignRight 4 (toString edge.target) ++ " (" ++ edge.kind.tag ++ ")\n"),
      "Labels:\n",
      String.join (report.labels.map fun (name, line) =>
        "  " ++ Text.alignRight 4 (toString line) ++ " " ++ name ++ "\n")]

/-- The report as a document. -/
def document (report : Report) : Json :=
  .object
    [("lines", .natural report.lines),
      ("reachable", .natural report.reachable),
      ("blocks", .array (report.blocks.map fun block =>
        .object [("start", .natural block.start), ("end", .natural block.stop)])),
      ("edges", .array (report.edges.map fun edge =>
        .object [("from", .natural edge.source), ("to", .natural edge.target),
          ("kind", .text edge.kind.tag)])),
      ("labels", .array (report.labels.map fun (name, line) =>
        .object [("line", .natural line), ("name", .text name)])),
      ("mix", .object (report.mix.map fun (family, count) => (family.name, .natural count))),
      ("unreachable", .array (report.unreachable.map .natural))]

end Report

end LineAsm.Flow
