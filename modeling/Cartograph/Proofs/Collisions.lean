import Cartograph.Proofs.Discovery
import Cartograph.Proofs.FileOrder
import Mathlib

/-!
# Entities that collide

An identifier joins a sort, the path of a file and what the file declares with colons, and none of
them is marked where it holds a colon itself. So two files can declare the same identifier if the
path of one goes on with a colon where the other one ends, and only the first of their entities is
kept (`entities_collide`). Main statement: this is the only way. Files none of whose paths goes on
so from another one have only classes known by name in common, and keep their nodes
(`kept_of_apart`).
-/

namespace Cartograph

/-! ## Paths in identifiers -/

/-- What stands behind the first colon of an identifier. -/
def bodyOf (id : String) : List Char :=
  (id.toList.dropWhile (· ≠ ':')).tail

/-- The body of the identifier is the path, or goes on with a colon behind the path. -/
def NamesPath (id path : String) : Prop :=
  path.toList ++ [':'] <+: bodyOf id ++ [':']

theorem namesPath_fileId (path : String) : NamesPath (fileId path) path := by
  simp [NamesPath, bodyOf, fileId]

/-- What a file declares names the path of the file. -/
theorem Declared.namesPath {path id : String} (h : Declared path id) : NamesPath id path := by
  cases h with
  | «class» name => simp [NamesPath, bodyOf, classId]
  | function name => simp [NamesPath, bodyOf, functionId]
  | endpoint label => simp [NamesPath, bodyOf, endpointId]
  | model name => simp [NamesPath, bodyOf, modelId]
  | router => simp [NamesPath, bodyOf, routerId]

/-- A node of a fragment names the path of its file, or is a class known by name only. -/
theorem Grown.namesPath_or_classRefId {file : SourceFile} {targets : List String} {g : Graph}
    (h : Grown file targets g) {n : Node} (hn : n ∈ g.nodes) :
    NamesPath n.id file.path ∨ ∃ name, n.id = classRefId name := by
  rcases h.mem_nodes hn with rfl | ⟨edge, brings⟩
  · exact Or.inl (namesPath_fileId file.path)
  · rcases brings.declared_or_classRef with declared | ⟨base, rfl⟩
    · exact Or.inl declared.namesPath
    · exact Or.inr ⟨base, rfl⟩

/-! ## Paths apart -/

/-- The path `q` goes on with a colon where `p` ends. -/
def GoesOn (p q : String) : Prop :=
  p.toList ++ [':'] <+: q.toList

/-- Where a path and its colon begin another path with a colon behind it, the paths are the same or
the other one goes on. -/
theorem eq_or_goesOn {p q : String} (h : p.toList ++ [':'] <+: q.toList ++ [':']) :
    p = q ∨ GoesOn p q := by
  rcases List.prefix_concat_iff.mp h with heq | hgoes
  · exact Or.inl (String.toList_inj.mp (List.append_cancel_right heq))
  · exact Or.inr hgoes

/-- Different paths, neither of which goes on with a colon where the other one ends. -/
structure Apart (p q : String) : Prop where
  ne : p ≠ q
  not_goesOn : ¬ GoesOn p q
  not_goesOn_symm : ¬ GoesOn q p

theorem Apart.symm {p q : String} (h : Apart p q) : Apart q p where
  ne := h.ne.symm
  not_goesOn := h.not_goesOn_symm
  not_goesOn_symm := h.not_goesOn

/-- Different paths without colons are apart. -/
theorem apart_of_not_mem {p q : String} (hne : p ≠ q) (hp : ':' ∉ p.toList)
    (hq : ':' ∉ q.toList) : Apart p q where
  ne := hne
  not_goesOn h := hq (h.subset (by simp))
  not_goesOn_symm h := hp (h.subset (by simp))

/-- **No identifier names two paths** that are apart. -/
theorem Apart.not_namesPath {p q id : String} (h : Apart p q) (hp : NamesPath id p) :
    ¬ NamesPath id q := by
  intro hq
  -- both paths begin one and the same body, so one of them begins the other
  rcases List.prefix_or_prefix_of_prefix hp hq with hpq | hqp
  · rcases eq_or_goesOn hpq with heq | hgoes
    · exact h.ne heq
    · exact h.not_goesOn hgoes
  · rcases eq_or_goesOn hqp with heq | hgoes
    · exact h.ne heq.symm
    · exact h.not_goesOn_symm hgoes

/-! ## Files apart -/

section

variable {tree : FileTree} {settings : ExtractionSettings} {files : List SourceFile}

/-- The only thing that files with paths apart have in common are classes known by name. -/
theorem eq_classRefId_of_apart {a b : SourceFile} (h : Apart a.path b.path) {m n : Node}
    (hm : m ∈ (a.contribution tree settings).nodes)
    (hn : n ∈ (b.contribution tree settings).nodes) (hid : m.id = n.id) :
    ∃ name, m.id = classRefId name := by
  rcases (a.grown_contribution tree settings).namesPath_or_classRefId hm with hpath | hname
  · rcases (b.grown_contribution tree settings).namesPath_or_classRefId hn with hother | hname
    · exact absurd (hid ▸ hother) (h.not_namesPath hpath)
    · exact hid ▸ hname
  · exact hname

/-- The paths of the files are apart. -/
def PathsApart (files : List SourceFile) : Prop :=
  ∀ a ∈ files, ∀ b ∈ files, a ≠ b → Apart a.path b.path

/-- Files with paths apart agree about everything. -/
theorem PathsApart.agreeAbout (h : PathsApart files) (id : String) :
    AgreeAbout tree settings files id := by
  intro a ha b hb m hm n hn hmid hnid
  by_cases hsame : a = b
  · subst hsame
    exact (a.grown_contribution tree settings).indexed.eq_of_id_eq hm hn (hmid.trans hnid.symm)
  · obtain ⟨name, hname⟩ :=
      eq_classRefId_of_apart (h a ha b hb hsame) hm hn (hmid.trans hnid.symm)
    exact agreeAbout_classRefId name a ha b hb m hm n hn hname
      ((hnid.trans hmid.symm).trans hname)

/-- **Files with paths apart do not collide.** They have nothing in common but classes known by name
only, and no node of any of them is lost when they are put together. -/
theorem kept_of_apart (h : PathsApart files) (hpool : host.pool settings.workers = .ok ()) :
    (∀ a ∈ files, ∀ b ∈ files, a ≠ b → ∀ m ∈ (a.contribution tree settings).nodes,
        ∀ n ∈ (b.contribution tree settings).nodes, m.id = n.id →
          ∃ name, m.id = classRefId name) ∧
      ∃ g, buildGraph host tree settings files (undisturbed files) = .ok g ∧
        ∀ file ∈ files, ∀ n ∈ (file.contribution tree settings).nodes,
          g.node? n.id = some n := by
  refine ⟨?_, _, buildGraph_undisturbed hpool, ?_⟩
  · intro a ha b hb hne m hm n hn hid
    exact eq_classRefId_of_apart (h a ha b hb hne) hm hn hid
  · intro file hfile n hn
    exact node?_combined_eq_some hfile hn (h.agreeAbout n.id)

end

/-- Two files without colons in their paths. -/
def colonFree : FileTree :=
  .directory [("repo", .directory
    [("a.js", .file (Text.Utf8.encode "app.get('/', f)\n")),
      ("b.js", .file (Text.Utf8.encode "app.get('/', f)\nclass B extends Base {}\n"))])]

/-- The files without colons do not collide. -/
theorem kept_of_apart_colonFree :
    PathsApart [SourceFile.at ["repo"] ["a.js"], SourceFile.at ["repo"] ["b.js"]] ∧
      ∃ g, buildGraph {} colonFree {}
          [SourceFile.at ["repo"] ["a.js"], SourceFile.at ["repo"] ["b.js"]]
          [.passed, .passed] = .ok g ∧
        ∀ file ∈ [SourceFile.at ["repo"] ["a.js"], SourceFile.at ["repo"] ["b.js"]],
          ∀ n ∈ (file.contribution colonFree {}).nodes, g.node? n.id = some n := by
  have hpaths : (SourceFile.at ["repo"] ["a.js"]).path = "a.js" ∧
      (SourceFile.at ["repo"] ["b.js"]).path = "b.js" := ⟨by cbv, by cbv⟩
  have hab : Apart "a.js" "b.js" := apart_of_not_mem (by decide) (by decide) (by decide)
  have hapart : PathsApart [SourceFile.at ["repo"] ["a.js"], SourceFile.at ["repo"] ["b.js"]] := by
    intro a ha b hb hne
    simp only [List.mem_cons, List.not_mem_nil, or_false] at ha hb
    rcases ha with rfl | rfl <;> rcases hb with rfl | rfl
    · exact absurd rfl hne
    · rw [hpaths.1, hpaths.2]
      exact hab
    · rw [hpaths.1, hpaths.2]
      exact hab.symm
    · exact absurd rfl hne
  exact ⟨hapart, (kept_of_apart hapart rfl).2⟩

/-! ## Entities that collide -/

namespace Script

/-- The text sets up one route and shows nothing else that a script file is searched for. -/
structure OnlyRoute (text : List Char) (found : Pattern.Occurrence) : Prop where
  route : route.occurrences text = [found]
  classes : classDeclaration.occurrences text = []
  functions : functions text = []
  models : models text = []
  imports : importedModules text = []
  marks : marks text = []
  router : routerSetUp.occursIn text = false

/-- A file that only sets up a route contributes the endpoint of the route. -/
theorem OnlyRoute.mem_nodes {text : List Char} {line : Nat} {verb path : String}
    (h : OnlyRoute text ⟨line, [verb, path]⟩) (file : SourceFile) :
    routeNode file line verb path ∈ (fragment file text).nodes := by
  have hfragment : fragment file text
      = file.bareFragment.addOwned file .endpointHandler (routeNode file line verb path) := by
    simp only [fragment, h.route, h.classes, h.functions, h.models, h.imports, h.marks, h.router,
      addRoute, List.foldl_cons, List.foldl_nil, Bool.false_eq_true, if_false]
  have hnew : file.bareFragment.contains (routeNode file line verb path).id = false := by
    have hid : sortOf (routeNode file line verb path).id ≠ "file".toList := by
      simp [routeNode, Node.note]
    have hne : (routeNode file line verb path).id ≠ file.id := ne_fileId hid file.path
    simpa [SourceFile.bareFragment, Graph.contains_addNode, SourceFile.node] using hne.symm
  rw [hfragment, Graph.addOwned, Graph.nodes_addEdge, Graph.nodes_addNode, hnew]
  simp

end Script

/-- A script file contributes what its text makes. -/
theorem contribution_of_script {file : SourceFile} {tree : FileTree}
    {settings : ExtractionSettings} {text : List Char} (hlanguage : file.language = .script)
    (hread : file.read tree none = .ok text) :
    file.contribution tree settings = Script.fragment file text := by
  have hlimit : Language.script.readLimit? settings.readLimit = none := rfl
  rw [SourceFile.contribution, SourceFile.fragment?, hlanguage, hlimit, hread]
  rfl

/-- A file and another one whose path goes on with a colon where the path of the first one ends. -/
def colliding : FileTree :=
  .directory [("repo", .directory
    [("a.js", .file (Text.Utf8.encode "app.get('b.js:GET:/', f)\n")),
      ("a.js:GET:b.js", .file (Text.Utf8.encode "app.get('/', f)\n"))])]

/-- The endpoint that the first file declares. -/
def shadowing : Node where
  id := "endpoint:a.js:GET:b.js:GET:/"
  label := "GET b.js:GET:/"
  kind := .endpoint
  path := "a.js"
  line := 1
  metadata := [("method", .str "GET"), ("path", .str "b.js:GET:/")]

/-- The endpoint that the second file declares. -/
def shadowed : Node where
  id := "endpoint:a.js:GET:b.js:GET:/"
  label := "GET /"
  kind := .endpoint
  path := "a.js:GET:b.js"
  line := 1
  metadata := [("method", .str "GET"), ("path", .str "/")]

theorem repositoryFiles_colliding : repositoryFiles colliding ["repo"] {} =
    [SourceFile.at ["repo"] ["a.js"], SourceFile.at ["repo"] ["a.js:GET:b.js"]] := by
  have hroot : colliding.get? ["repo"] = some (.directory
      [("a.js", .file (Text.Utf8.encode "app.get('b.js:GET:/', f)\n")),
        ("a.js:GET:b.js", .file (Text.Utf8.encode "app.get('/', f)\n"))]) := rfl
  rw [repositoryFiles, ignoredIn_of_missing hroot (by decide)]
  cbv

theorem onlyRoute_shadowing :
    Script.OnlyRoute "app.get('b.js:GET:/', f)\n".toList ⟨1, ["get", "b.js:GET:/"]⟩ := by
  constructor <;> cbv

theorem onlyRoute_shadowed :
    Script.OnlyRoute "app.get('/', f)\n".toList ⟨1, ["get", "/"]⟩ := by
  constructor <;> cbv

theorem mem_nodes_shadowing :
    shadowing ∈ ((SourceFile.at ["repo"] ["a.js"]).contribution colliding {}).nodes := by
  have hnode : shadowing
      = Script.routeNode (SourceFile.at ["repo"] ["a.js"]) 1 "get" "b.js:GET:/" := by cbv
  have hlanguage : (SourceFile.at ["repo"] ["a.js"]).language = .script := by cbv
  have hread : (SourceFile.at ["repo"] ["a.js"]).read colliding none
      = .ok "app.get('b.js:GET:/', f)\n".toList := by cbv
  rw [contribution_of_script hlanguage hread, hnode]
  exact onlyRoute_shadowing.mem_nodes _

theorem mem_nodes_shadowed :
    shadowed ∈ ((SourceFile.at ["repo"] ["a.js:GET:b.js"]).contribution colliding {}).nodes := by
  have hnode : shadowed
      = Script.routeNode (SourceFile.at ["repo"] ["a.js:GET:b.js"]) 1 "get" "/" := by cbv
  have hlanguage : (SourceFile.at ["repo"] ["a.js:GET:b.js"]).language = .script := by cbv
  have hread : (SourceFile.at ["repo"] ["a.js:GET:b.js"]).read colliding none
      = .ok "app.get('/', f)\n".toList := by
    have hlocation : (SourceFile.at ["repo"] ["a.js:GET:b.js"]).location
        = "/repo/a.js:GET:b.js" := by cbv
    have hparts : FileTree.pathParts "/repo/a.js:GET:b.js" = ["", "repo", "a.js:GET:b.js"] := by
      cbv
    have hbytes : colliding.readBytes [] "/repo/a.js:GET:b.js"
        = .ok (Text.Utf8.encode "app.get('/', f)\n") :=
      FileTree.readBytes_eq_ok (by decide) hparts (by decide) (by decide) (by decide) rfl []
    rw [SourceFile.read, hlocation, hbytes]
    cbv
  rw [contribution_of_script hlanguage hread, hnode]
  exact onlyRoute_shadowed.mem_nodes _

/-- **Entities of different files can collide**: two files of a repository declare different
endpoints with one identifier, and the report has only that of the first one. -/
theorem entities_collide :
    repositoryAt colliding [] "/repo" = .ok ["repo"] ∧
      ∃ a ∈ repositoryFiles colliding ["repo"] {}, ∃ b ∈ repositoryFiles colliding ["repo"] {},
        a.path ≠ b.path ∧
        ∃ m ∈ (a.contribution colliding {}).nodes, ∃ n ∈ (b.contribution colliding {}).nodes,
          m.id = n.id ∧ (∀ name, m.id ≠ classRefId name) ∧
          ∃ report, analyze {} colliding {} [] "/repo" = .ok report ∧
            m ∈ report.nodes.map RatedNode.node ∧ n ∉ report.nodes.map RatedNode.node := by
  have hroot : repositoryAt colliding [] "/repo" = .ok ["repo"] := by cbv
  have hpath : (SourceFile.at ["repo"] ["a.js"]).path
      ≠ (SourceFile.at ["repo"] ["a.js:GET:b.js"]).path := by
    have hfirst : (SourceFile.at ["repo"] ["a.js"]).path = "a.js" := by cbv
    have hsecond : (SourceFile.at ["repo"] ["a.js:GET:b.js"]).path = "a.js:GET:b.js" := by cbv
    rw [hfirst, hsecond]
    decide
  have hname : ∀ name, shadowing.id ≠ classRefId name :=
    (Declared.endpoint "GET:b.js:GET:/" : Declared "a.js" shadowing.id).ne_classRefId
  have hnodes : (repositoryReport colliding {} ["repo"]).nodes.map RatedNode.node
      = (combined colliding {} (repositoryFiles colliding ["repo"] {})).nodes.toList := by
    rw [repositoryReport, Graph.nodes_report, Graph.nodes_finish]
  have hfound : (combined colliding {} (repositoryFiles colliding ["repo"] {})).node? shadowed.id
      = some shadowing := by
    rw [repositoryFiles_colliding]
    exact node?_combined_cons mem_nodes_shadowing _
  refine ⟨hroot, _, ?_, _, ?_, hpath, shadowing, mem_nodes_shadowing, shadowed,
    mem_nodes_shadowed, rfl, hname, _, analyze_eq_ok hroot rfl, ?_, ?_⟩
  · rw [repositoryFiles_colliding]
    exact List.mem_cons_self
  · rw [repositoryFiles_colliding]
    exact List.mem_cons_of_mem _ List.mem_cons_self
  · rw [hnodes, Array.mem_toList_iff]
    exact (combined_indexed.node?_eq_some_iff.mp hfound).1
  · rw [hnodes, Array.mem_toList_iff]
    intro hmem
    have hsame : shadowing = shadowed :=
      Option.some.inj (hfound.symm.trans (combined_indexed.node?_eq_some_iff.mpr ⟨hmem, rfl⟩))
    exact absurd (congrArg Node.path hsame) (by decide)

end Cartograph
