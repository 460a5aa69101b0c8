import Cartograph.Proofs.Graph.Codec
import Cartograph.Proofs.Json.Text
import Cartograph.Proofs.Settings.Codec

/-!
# What is written reads back

Nodes, edges, reports and settings are each written as JSON and read back by a codec. Whatever was
written reads back, from the value as it is written, from its canonical form and, unless it is
nested too deep for a reader, from both texts of it. What is read from any value has a normal form,
which reads as the same and is its own normal form. A node or an edge may be given as the array of
its fields (`codecs_round_trip`).
-/

namespace Cartograph

open Json

/-! ## Codecs -/

/-- How what is in order is written as JSON and read back. -/
structure Codec (α : Type) where
  write : α → Json
  read? : Json → Option α
  /-- Facts are sorted by key, and tables are in the order of the legend. -/
  Proper : α → Prop

section

variable {α : Type}

/-- What is written, members sorted. -/
def Codec.encode (codec : Codec α) (x : α) : Json :=
  (codec.write x).canonical

/-- What a value is written as once it has been read. -/
def Codec.normalize? (codec : Codec α) (value : Json) : Option Json :=
  (codec.read? value).map codec.encode

/-- Writing and reading undo each other, and reading puts into a normal form. -/
structure Codec.RoundTrips (codec : Codec α) : Prop where
  read_write : ∀ x, codec.Proper x → codec.read? (codec.write x) = some x
  read_encode : ∀ x, codec.Proper x → codec.read? (codec.encode x) = some x
  read_compact : ∀ x, codec.Proper x → (codec.write x).Integral →
    (codec.write x).nesting ≤ nestingLimit →
      (parse? (codec.write x).compact).bind codec.read? = some x
  read_pretty : ∀ x, codec.Proper x → (codec.write x).Integral →
    (codec.write x).nesting ≤ nestingLimit →
      (parse? (codec.write x).pretty).bind codec.read? = some x
  normal : ∀ value x, value.Ordered → codec.read? value = some x →
    codec.Proper x ∧ codec.read? (codec.encode x) = some x ∧
      codec.normalize? (codec.encode x) = some (codec.encode x)

/-- It is enough that what was written reads back in every order of its members, and that only what
is in order is read. -/
theorem Codec.roundTrips {codec : Codec α}
    (hread : ∀ form, Rearranges form → ∀ x, codec.Proper x →
      codec.read? (form (codec.write x)) = some x)
    (hproper : ∀ value x, value.Ordered → codec.read? value = some x → codec.Proper x) :
    codec.RoundTrips := by
  have hencode : ∀ x, codec.Proper x → codec.read? (codec.encode x) = some x :=
    hread canonical rearranges_canonical
  refine ⟨hread id rearranges_id, hencode, fun x hx hnumbers hnesting => ?_,
    fun x hx hnumbers hnesting => ?_, fun value x hvalue hx => ?_⟩
  · rw [parse?, read?_compact hnumbers hnesting, Option.map_some, Option.bind_some]
    exact hencode x hx
  · rw [parse?, read?_pretty hnumbers hnesting, Option.map_some, Option.bind_some]
    exact hencode x hx
  · have hback := hencode x (hproper value x hvalue hx)
    refine ⟨hproper value x hvalue hx, hback, ?_⟩
    rw [Codec.normalize?, hback, Option.map_some]

end

/-! ## The codecs of a report -/

/-- How a node is written and read. -/
def Node.codec : Codec Node where
  write := Node.toJson
  read? := Node.ofJson?
  Proper := Node.Proper

/-- How an edge is written and read. -/
def Edge.codec : Codec Edge where
  write := Edge.toJson
  read? := Edge.ofJson?
  Proper := Edge.Proper

/-- How a report is written and read. -/
def Report.codec : Codec Report where
  write := Report.toJson
  read? := Report.ofJson?
  Proper := Report.Proper

/-- How settings are written and read, surplus items of arrays passed over or not. -/
def Settings.codec (surplus : Bool) : Codec Settings where
  write := Settings.toJson
  read? := Settings.ofJson? surplus
  Proper _ := True

/-- **What is written reads back, and what is read has a normal form.** The array of the fields of a
node or an edge is read as any object that has these fields. -/
theorem codecs_round_trip :
    Node.codec.RoundTrips ∧ Edge.codec.RoundTrips ∧ Report.codec.RoundTrips ∧
      (∀ surplus, (Settings.codec surplus).RoundTrips) ∧
      (∀ members items, (Node.keys.mapM fun key => member? key members) = some items →
        Node.ofJson? (.arr items) = Node.ofJson? (.obj members)) ∧
      ∀ members items, (Edge.keys.mapM fun key => member? key members) = some items →
        Edge.ofJson? (.arr items) = Edge.ofJson? (.obj members) := by
  refine ⟨?_, ?_, ?_, fun surplus => ?_, fun _ _ => Node.ofJson?_arr, fun _ _ => Edge.ofJson?_arr⟩
  · exact Codec.roundTrips (fun _ hform _ => Node.ofJson?_toJson hform)
      fun _ _ => Node.proper_of_ofJson?
  · exact Codec.roundTrips (fun _ hform _ => Edge.ofJson?_toJson hform)
      fun _ _ => Edge.proper_of_ofJson?
  · exact Codec.roundTrips (fun _ hform _ => Report.ofJson?_toJson hform)
      fun _ _ => Report.proper_of_ofJson?
  · exact Codec.roundTrips (fun _ hform settings _ => settings.ofJson?_toJson hform surplus)
      fun _ _ _ _ => trivial

/-! ### A report without a name -/

/-- A report with nested facts whose repository is not named. -/
def nestedReport : Report where
  nodes := [{
    node := {
      id := "file:a.py", label := "\"a\"\n", kind := .file, path := "a.py", line := 3
      metadata := [("extension", .str ".py"),
        ("spans", .arr [.obj [("from", .int (-1)), ("to", .null)], .bool true])] }
    degree := 2 }]
  edges := [{ source := "file:a.py", target := "file:a.py", kind := .imports, metadata := [] }]
  nodeColors := [(.file, "#66bb6a"), (.class, "#ffa726")]
  edgeColors := [(.imports, "#4fc3f7")]
  nodeCounts := [(.file, 1)]
  edgeCounts := [(.imports, 1)]
  totals := { nodes := 1, edges := 1 }

theorem nestedReport_proper : nestedReport.Proper where
  nodes := by decide
  edges := by decide
  nodeColors := by decide
  edgeColors := by decide
  nodeCounts := by decide
  edgeCounts := by decide

theorem nestedReport_integral : nestedReport.toJson.Integral := by
  decide

theorem nestedReport_nesting : nestedReport.toJson.nesting ≤ nestingLimit := by
  decide

/-- The report reads back although its repository is not named, and its edge from an array. -/
theorem codecs_round_trip_nestedReport :
    nestedReport.Proper ∧ nestedReport.toJson.Integral ∧
      nestedReport.toJson.nesting ≤ nestingLimit ∧
      Report.ofJson? nestedReport.toJson = some nestedReport ∧
      (parse? nestedReport.toJson.compact).bind Report.ofJson? = some nestedReport ∧
      Report.codec.normalize? nestedReport.toJson.canonical = some nestedReport.toJson.canonical ∧
      Edge.ofJson? (.arr [.str "file:a.py", .str "file:a.py", .str "imports", .obj []])
        = nestedReport.edges.head? := by
  have hreport := codecs_round_trip.2.2.1
  have hread := hreport.read_write nestedReport nestedReport_proper
  have htext := hreport.read_compact nestedReport nestedReport_proper nestedReport_integral
    nestedReport_nesting
  have hencode := hreport.read_encode nestedReport nestedReport_proper
  have hnormal := hreport.normal _ nestedReport (ordered_canonical nestedReport.toJson) hencode
  have harray := codecs_round_trip.2.2.2.2.2 [("type", .str "imports"), ("metadata", .obj []),
    ("target", .str "file:a.py"), ("source", .str "file:a.py")] _ rfl
  exact ⟨nestedReport_proper, nestedReport_integral, nestedReport_nesting, hread, htext,
    hnormal.2.2, harray.trans rfl⟩

end Cartograph
