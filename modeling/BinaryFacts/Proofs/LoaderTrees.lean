import BinaryFacts.Loader.Basic
import Mathlib.Tactic.Lemma

/-!
# Nested composites

A composite of composites runs its leaves from left to right, however they are grouped and whatever
the inner composites are called. Only the name of the outermost one matters, when it is loaded.
-/

namespace BinaryFacts

/-- Runs loaders from left to right on one store. -/
def Loader.inTurn (loaders : List Loader) : Loader := fun binary store =>
  loaders.foldl (fun store loader => loader binary store) store

lemma Loader.inTurn_append (first second : List Loader) (binary : Binary) (store : FactStore) :
    Loader.inTurn (first ++ second) binary store =
      Loader.inTurn second binary (Loader.inTurn first binary store) :=
  List.foldl_append

/-- Composites of composites, down to loaders of any kind. -/
inductive LoaderTree where
  | leaf (loader : Loader)
  | composite (name : String) (children : List LoaderTree)

namespace LoaderTree

mutual

/-- The tree as one loader. -/
def loader : LoaderTree → Loader
  | leaf loader => loader
  | composite name children => (CompositeLoader.mk name (loaders children)).populate

def loaders : List LoaderTree → List Loader
  | [] => []
  | tree :: rest => loader tree :: loaders rest

end

mutual

/-- The loaders at the leaves, from left to right. -/
def leaves : LoaderTree → List Loader
  | leaf loader => [loader]
  | composite _ children => leavesOfAll children

def leavesOfAll : List LoaderTree → List Loader
  | [] => []
  | tree :: rest => leaves tree ++ leavesOfAll rest

end

/-- The composite of some trees. -/
def root (name : String) (children : List LoaderTree) : CompositeLoader :=
  { name, loaders := children.map loader }

lemma loaders_eq_map (trees : List LoaderTree) : loaders trees = trees.map loader := by
  induction trees with
  | nil => rfl
  | cons tree rest ih => rw [loaders, ih, List.map_cons]

lemma leavesOfAll_eq_flatMap (trees : List LoaderTree) :
    leavesOfAll trees = trees.flatMap leaves := by
  induction trees with
  | nil => rfl
  | cons tree rest ih => rw [leavesOfAll, ih, List.flatMap_cons]

lemma loader_composite (name : String) (children : List LoaderTree) :
    (composite name children).loader = (root name children).populate := by
  rw [loader, loaders_eq_map]
  rfl

lemma leaves_composite (name : String) (children : List LoaderTree) :
    (composite name children).leaves = children.flatMap leaves := by
  rw [leaves, leavesOfAll_eq_flatMap]

mutual

/-- A tree is the run of its leaves. -/
lemma loader_eq_inTurn (tree : LoaderTree) : tree.loader = Loader.inTurn tree.leaves := by
  cases tree with
  | leaf leaf => rw [loader, leaves]; rfl
  | composite name children =>
    rw [loader, leaves]
    exact inTurn_loaders children

lemma inTurn_loaders (trees : List LoaderTree) :
    Loader.inTurn (loaders trees) = Loader.inTurn (leavesOfAll trees) := by
  cases trees with
  | nil => rfl
  | cons tree rest =>
    funext binary store
    rw [loaders, leavesOfAll, Loader.inTurn_append, ← loader_eq_inTurn tree,
      ← inTurn_loaders rest]
    rfl

end

lemma populate_root (name : String) (children : List LoaderTree) :
    (root name children).populate = Loader.inTurn (children.flatMap leaves) := by
  rw [← loader_composite, loader_eq_inTurn, leaves_composite]

lemma load?_root (name : String) (children : List LoaderTree) (engine : RuleEngine)
    (binary : Binary) :
    (root name children).load? engine binary =
      (engine.instantiate? name).map (Loader.inTurn (children.flatMap leaves) binary) := by
  rw [CompositeLoader.load?, populate_root]
  rfl

end LoaderTree

/-- Composites are the runs of their leaves in any nesting. A load asks the engine for the name of
the outermost composite alone, and runs the leaves on the store that it is handed: an empty one from
a book of rules, whatever was loaded before. -/
theorem nested_composites_flatten (name : String) (children : List LoaderTree) :
    let root := LoaderTree.root name children
    let run := Loader.inTurn (children.flatMap LoaderTree.leaves)
    (∀ binary store, root.populate binary store = run binary store) ∧
    (∀ tree other : LoaderTree, tree.leaves = other.leaves → tree.loader = other.loader) ∧
    (∀ engine binary,
      (root.load? engine binary = none ↔ engine.instantiate? name = none) ∧
      (∀ fresh, engine.instantiate? name = some fresh →
        root.load? engine binary = some (run binary fresh)) ∧
      ∀ other : RuleEngine, other.instantiate? name = engine.instantiate? name →
        root.load? other binary = root.load? engine binary) ∧
    ∀ (book : RuleBook) binary, root.load? book.engine binary =
      if book.programs.contains name then some (run binary (.new name)) else none := by
  intro root run
  have hload : ∀ engine binary,
      root.load? engine binary = (engine.instantiate? name).map (run binary) :=
    LoaderTree.load?_root name children
  refine ⟨fun binary store => ?_, fun tree other hleaves => ?_, fun engine binary => ?_,
    fun book binary => ?_⟩
  · exact congrFun (congrFun (LoaderTree.populate_root name children) binary) store
  · rw [tree.loader_eq_inTurn, other.loader_eq_inTurn, hleaves]
  · refine ⟨?_, fun fresh hfresh => ?_, fun other hother => ?_⟩
    · rw [hload, Option.map_eq_none_iff]
    · rw [hload, hfresh]
      rfl
    · rw [hload, hload, hother]
  · rw [hload]
    change Option.map _
      (if book.programs.contains name then some (FactStore.new name) else none) = _
    split <;> rfl

/-- A loader that leaves one row behind. -/
def mark (text : String) : Loader := fun _ store => store.insertRow "mark" [.symbol text]

/-- Three marks in composites of three levels, some of them empty. -/
def markedTrees : List LoaderTree :=
  [.composite "empty" [], .leaf (mark "first"),
    .composite "outer" [.composite "inner" [.leaf (mark "second"), .composite "empty" []],
      .leaf (mark "third")]]

theorem nested_composites_flatten_marks :
    let book := RuleBook.empty.registerEmpty "root"
    let binary := Binary.raw [] .x64 .little 0
    book.engine.instantiate? "root" = some (.new "root") ∧
      ((LoaderTree.root "root" markedTrees).load? book.engine binary).map (·.rows "mark") =
        some [[.symbol "first"], [.symbol "second"], [.symbol "third"]] := by
  intro book binary
  have hfresh : book.engine.instantiate? "root" = some (.new "root") := by decide
  refine ⟨hfresh, ?_⟩
  rw [((nested_composites_flatten "root" markedTrees).2.2.1 book.engine binary).2.1 _ hfresh]
  decide

end BinaryFacts
