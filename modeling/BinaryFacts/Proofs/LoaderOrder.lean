import BinaryFacts.Target.Registry
import Mathlib.Data.List.Nodup
import Mathlib.Data.List.Pairwise
import Mathlib.Logic.Function.Iterate

/-!
# Loaders in any order

A loader appends what it finds in a binary to relations of its own, whatever the store holds. The
loaders of a target share no relation, so they may run in any order, and each further run appends
the same rows once more.
-/

namespace BinaryFacts

namespace FactStore

/-- A change that appends rows to relations and creates those that are missing, all of them among
the named ones. What it appends does not depend on the store. -/
structure Appends (change : FactStore → FactStore) (names : List String)
    (added : String → Option (List Row)) : Prop where
  program : ∀ store, (change store).program = store.program
  rows : ∀ store relation,
    (change store).rows relation = store.rows relation ++ (added relation).getD []
  contains : ∀ store relation,
    (change store).contains relation = (store.contains relation || (added relation).isSome)
  named : ∀ relation, (added relation).isSome → relation ∈ names

lemma relation?_eq_ite (store : FactStore) (relation : String) :
    store.relation? relation =
      if store.contains relation then some (store.rows relation) else none := by
  unfold contains OrderedMap.contains rows relation?
  cases store.relations.get? relation <;> rfl

lemma ext_rows {s t : FactStore} (hprogram : s.program = t.program)
    (hcontains : ∀ relation, s.contains relation = t.contains relation)
    (hrows : ∀ relation, s.rows relation = t.rows relation) : s = t := by
  apply ext_relation? hprogram
  intro relation
  rw [relation?_eq_ite, relation?_eq_ite, hcontains, hrows]

/-- Inserts rows into relations, one after the other. -/
def insertAll (store : FactStore) (found : List (String × List Row)) : FactStore :=
  found.foldl (fun store (relation, rows) => store.insert relation rows) store

lemma insertAll_append (store : FactStore) (found found' : List (String × List Row)) :
    store.insertAll (found ++ found') = (store.insertAll found).insertAll found' :=
  List.foldl_append

namespace Appends

variable {change change' : FactStore → FactStore} {names names' : List String}
  {added added' : String → Option (List Row)}

lemma mono (h : Appends change names added) (hsub : names ⊆ names') :
    Appends change names' added :=
  { h with named := fun relation hadded => hsub (h.named relation hadded) }

lemma unchanged : Appends (fun store => store) [] fun _ => none where
  program _ := rfl
  rows _ _ := (List.append_nil _).symm
  contains _ _ := (Bool.or_false _).symm
  named _ hadded := absurd hadded Bool.false_ne_true

lemma insert (relation : String) (found : List Row) :
    Appends (·.insert relation found) [relation]
      (fun other => if other = relation then some found else none) where
  program _ := rfl
  rows store other := by
    rw [rows_insert]
    split <;> rfl
  contains store other := by
    change ((store.insert relation found).relation? other).isSome = _
    rw [relation?_insert]
    split
    · exact (Bool.or_true _).symm
    · exact (Bool.or_false _).symm
  named other hadded := by
    by_cases hother : other = relation
    · exact List.mem_singleton.mpr hother
    · rw [if_neg hother] at hadded
      exact absurd hadded Bool.false_ne_true

lemma comp (h : Appends change names added) (h' : Appends change' names' added') :
    Appends (fun store => change' (change store)) (names ++ names')
      (fun relation => Option.merge (· ++ ·) (added relation) (added' relation)) where
  program store := (h'.program _).trans (h.program store)
  rows store relation := by
    rw [h'.rows, h.rows, List.append_assoc]
    cases added relation with
    | none => cases added' relation <;> rfl
    | some found =>
      cases added' relation with
      | none => exact congrArg _ (List.append_nil found)
      | some found' => rfl
  contains store relation := by
    rw [h'.contains, h.contains, Bool.or_assoc, Option.isSome_merge]
  named relation hadded := by
    rw [Option.isSome_merge, Bool.or_eq_true] at hadded
    rw [List.mem_append]
    exact hadded.imp (h.named relation) (h'.named relation)

lemma insertAll (found : List (String × List Row)) :
    ∃ added, Appends (·.insertAll found) (found.map Prod.fst) added := by
  induction found with
  | nil => exact ⟨_, unchanged⟩
  | cons first rest ih =>
    obtain ⟨added, hrest⟩ := ih
    exact ⟨_, (insert first.1 first.2).comp hrest⟩

/-- Changes of different relations may change places. -/
lemma commute (h : Appends change names added) (h' : Appends change' names' added')
    (hdisjoint : names.Disjoint names') (store : FactStore) :
    change' (change store) = change (change' store) := by
  apply ext_rows
  · rw [h'.program, h.program, h.program, h'.program]
  · intro relation
    rw [h'.contains, h.contains, h.contains, h'.contains, Bool.or_right_comm]
  · intro relation
    rw [h'.rows, h.rows, h.rows, h'.rows, List.append_assoc, List.append_assoc]
    congr 1
    cases hadded : added relation with
    | none => exact (List.append_nil _).symm
    | some found =>
      have hnone : added' relation = none := by
        rw [← Option.not_isSome_iff_eq_none]
        intro hadded'
        refine hdisjoint (h.named relation ?_) (h'.named relation hadded')
        rw [hadded]
        rfl
      rw [hnone]
      exact List.append_nil found

/-- What a change appends to any store is what it puts into an empty one. -/
lemma getD_added (h : Appends change names added) (program relation : String) :
    (added relation).getD [] = (change (.new program)).rows relation := by
  rw [h.rows, rows_new, List.nil_append]

lemma isSome_added (h : Appends change names added) (program relation : String) :
    (added relation).isSome = (change (.new program)).contains relation := by
  rw [h.contains]
  rfl

lemma program_iterate (h : Appends change names added) (count : Nat) (store : FactStore) :
    (change^[count] store).program = store.program := by
  induction count generalizing store with
  | zero => rfl
  | succ count ih => rw [Function.iterate_succ_apply, ih, h.program]

lemma rows_iterate (h : Appends change names added) (count : Nat) (store : FactStore)
    (relation : String) :
    (change^[count] store).rows relation =
      store.rows relation ++ (List.replicate count ((added relation).getD [])).flatten := by
  induction count generalizing store with
  | zero => exact (List.append_nil _).symm
  | succ count ih =>
    rw [Function.iterate_succ_apply, ih, h.rows, List.append_assoc, List.replicate_succ,
      List.flatten_cons]

lemma contains_iterate (h : Appends change names added) (count : Nat) (store : FactStore)
    (relation : String) :
    (change^[count + 1] store).contains relation =
      (store.contains relation || (added relation).isSome) := by
  induction count generalizing store with
  | zero => exact h.contains store relation
  | succ count ih => rw [Function.iterate_succ_apply, ih, h.contains, Bool.or_assoc, Bool.or_self]

end Appends

end FactStore

/-- The loaders that targets are put together from. -/
inductive LoaderKind where
  | header
  | sections
  | instructions (decoder : Decoder)
  | data (pointer : PointerSize) (order : Endian)
  | dynamicEntries
  | symbols
  | exceptionFrames
  | rawEntry
deriving DecidableEq

namespace LoaderKind

def loader (d : Disassembler) : LoaderKind → Loader
  | header => Loader.header
  | sections => Loader.sections
  | instructions decoder => Loader.instructions decoder d
  | data pointer order => Loader.data pointer order
  | dynamicEntries => Loader.dynamicEntries
  | symbols => Loader.symbols
  | exceptionFrames => Loader.exceptionFrames
  | rawEntry => Loader.rawEntry

/-- The relations of a loader. -/
def relations : LoaderKind → List String
  | header =>
    ["binary_type", "binary_format", "binary_isa", "base_address", "entry_point", "endianness"]
  | sections => ["section", "section_property"]
  | instructions _ =>
    ["instruction", "invalid_instruction", "operand_register", "operand_immediate",
      "operand_indirect"]
  | data _ _ => ["data_byte", "address_in_data"]
  | dynamicEntries => ["dynamic_entry"]
  | symbols => ["elf_symbol"]
  | exceptionFrames => ["cie_encoding", "fde_addresses"]
  | rawEntry => ["raw_entry"]

lemma relations_eq_or_disjoint (a b : LoaderKind) :
    a.relations = b.relations ∨ a.relations.Disjoint b.relations := by
  cases a <;> cases b <;> simp [relations]

/-- What a loader finds in a binary, relation by relation. -/
def tables (d : Disassembler) (binary : Binary) : LoaderKind → List (String × List Row)
  | header =>
    [("binary_type", [[.symbol binary.typeLabel]]),
      ("binary_format", [[.symbol binary.format.label]]),
      ("binary_isa", [[.symbol binary.isa.label]]),
      ("base_address", [[.unsigned binary.preferredAddress]]),
      ("entry_point", [[.unsigned (binary.entryPoint.getD 0)]]),
      ("endianness", [[.symbol binary.byteOrder.label]])]
  | sections =>
    [("section", binary.sections.map Loader.sectionRow),
      ("section_property", binary.sections.flatMap Loader.propertyRows)]
  | instructions decoder =>
    let listing := binary.sweep decoder d
    let operands := listing.operands.entries
    [("instruction", listing.instructions.values.map Listing.instructionRow),
      ("invalid_instruction", listing.invalid.keys.map fun address => [.unsigned address]),
      ("operand_register", operands.filterMap Listing.registerRow?),
      ("operand_immediate", operands.filterMap Listing.immediateRow?),
      ("operand_indirect", operands.filterMap Listing.indirectRow?)]
  | data pointer order =>
    [("data_byte", binary.sections.flatMap Loader.dataByteRows),
      ("address_in_data", binary.sections.flatMap (Loader.pointerRows pointer order binary))]
  | dynamicEntries =>
    [("dynamic_entry", binary.dynamicEntries.map fun entry =>
        [.symbol entry.tag, .unsigned entry.value])]
  | symbols => [("elf_symbol", binary.symbols.filterMap Loader.symbolRow?)]
  | exceptionFrames =>
    match binary.sectionNamed? ".eh_frame" with
    | none => []
    | some s => match s.bytes with
      | none => []
      | some bytes =>
        let frame := binary.exceptionFrame s
        let entries := frame.records bytes
        [("cie_encoding", entries.filterMap (Loader.commonEntryRow? frame)),
          ("fde_addresses", entries.filterMap Loader.frameEntryRow?)]
  | rawEntry =>
    [("raw_entry", (binary.sections.filter (·.flags.executable)).map fun s =>
        [.unsigned s.address])]

lemma loader_eq (d : Disassembler) (kind : LoaderKind) (binary : Binary) :
    kind.loader d binary = (·.insertAll (kind.tables d binary)) := by
  funext store
  cases kind with
  | exceptionFrames =>
    change Loader.exceptionFrames binary store = _
    unfold Loader.exceptionFrames tables
    cases binary.sectionNamed? ".eh_frame" with
    | none => rfl
    | some s =>
      dsimp only
      cases s.bytes <;> rfl
  | _ => rfl

/-- Without exception frames their relations are not created. -/
lemma names_tables_subset (d : Disassembler) (kind : LoaderKind) (binary : Binary) :
    (kind.tables d binary).map Prod.fst ⊆ kind.relations := by
  cases kind with
  | exceptionFrames =>
    unfold tables
    cases binary.sectionNamed? ".eh_frame" with
    | none => exact List.nil_subset _
    | some s =>
      dsimp only
      cases s.bytes with
      | none => exact List.nil_subset _
      | some bytes => exact List.Subset.refl _
  | _ => exact List.Subset.refl _

lemma appends_loader (d : Disassembler) (kind : LoaderKind) (binary : Binary) :
    ∃ added, FactStore.Appends (kind.loader d binary) kind.relations added := by
  obtain ⟨added, h⟩ := FactStore.Appends.insertAll (kind.tables d binary)
  rw [kind.loader_eq]
  exact ⟨added, h.mono (kind.names_tables_subset d binary)⟩

/-- Loaders of different relations may change places. -/
lemma loader_commute (d : Disassembler) {a b : LoaderKind} (h : a.relations ≠ b.relations)
    (binary : Binary) (store : FactStore) :
    b.loader d binary (a.loader d binary store) = a.loader d binary (b.loader d binary store) := by
  obtain ⟨added, hfirst⟩ := a.appends_loader d binary
  obtain ⟨added', hsecond⟩ := b.appends_loader d binary
  exact hfirst.commute hsecond ((a.relations_eq_or_disjoint b).resolve_left h) store

lemma populate_eq (d : Disassembler) (name : String) (kinds : List LoaderKind) (binary : Binary) :
    (CompositeLoader.mk name (kinds.map (loader d))).populate binary =
      (·.insertAll (kinds.flatMap (tables d binary))) := by
  funext store
  induction kinds generalizing store with
  | nil => rfl
  | cons kind rest ih =>
    rw [List.map_cons, CompositeLoader.populate_cons, ih, List.flatMap_cons,
      FactStore.insertAll_append, loader_eq]

lemma appends_populate (d : Disassembler) (name : String) (kinds : List LoaderKind)
    (binary : Binary) :
    ∃ added, FactStore.Appends
      ((CompositeLoader.mk name (kinds.map (loader d))).populate binary)
      (kinds.flatMap relations) added := by
  obtain ⟨added, h⟩ := FactStore.Appends.insertAll (kinds.flatMap (tables d binary))
  rw [populate_eq]
  refine ⟨added, h.mono ?_⟩
  rw [List.map_flatMap]
  intro relation hrelation
  obtain ⟨kind, hkind, hmem⟩ := List.mem_flatMap.mp hrelation
  exact List.mem_flatMap.mpr ⟨kind, hkind, kind.names_tables_subset d binary hmem⟩

end LoaderKind

namespace TargetSpec

def kinds (spec : TargetSpec) : List LoaderKind :=
  [.header, .sections, .instructions spec.decoder, .data spec.pointer spec.dataOrder] ++
    match spec.container with
    | .elf => [.dynamicEntries, .symbols, .exceptionFrames]
    | .raw => [.rawEntry]

lemma assemble_eq (spec : TargetSpec) (d : Disassembler) :
    spec.assemble d = { name := spec.program, loaders := spec.kinds.map (·.loader d) } := by
  unfold assemble containerLoaders kinds
  cases spec.container <;> rfl

lemma appends_populate (spec : TargetSpec) (d : Disassembler) (binary : Binary) :
    ∃ added, FactStore.Appends ((spec.assemble d).populate binary)
      (spec.kinds.flatMap LoaderKind.relations) added := by
  rw [spec.assemble_eq d]
  exact LoaderKind.appends_populate d spec.program spec.kinds binary

lemma program_populate (spec : TargetSpec) (d : Disassembler) (binary : Binary)
    (store : FactStore) :
    ((spec.assemble d).populate binary store).program = store.program := by
  obtain ⟨added, hadded⟩ := spec.appends_populate d binary
  exact hadded.program store

lemma rows_populate (spec : TargetSpec) (d : Disassembler) {relation : String}
    (h : relation ∉ spec.kinds.flatMap LoaderKind.relations) (binary : Binary)
    (store : FactStore) :
    ((spec.assemble d).populate binary store).rows relation = store.rows relation := by
  obtain ⟨added, hadded⟩ := spec.appends_populate d binary
  have hnone : added relation = none := by
    rw [← Option.not_isSome_iff_eq_none]
    exact fun hsome => h (hadded.named relation hsome)
  rw [hadded.rows, hnone]
  exact List.append_nil _

lemma relations_pairwise_ne (spec : TargetSpec) :
    spec.kinds.Pairwise fun a b => a.relations ≠ b.relations := by
  unfold kinds
  cases spec.container <;> simp [LoaderKind.relations]

lemma loaders_commute (spec : TargetSpec) (d : Disassembler) (binary : Binary) :
    ∀ first ∈ (spec.assemble d).loaders, ∀ second ∈ (spec.assemble d).loaders, ∀ store,
      second binary (first binary store) = first binary (second binary store) := by
  have hpairwise : (spec.assemble d).loaders.Pairwise fun first second => ∀ store,
      second binary (first binary store) = first binary (second binary store) := by
    rw [assemble_eq]
    exact List.pairwise_map.mpr
      (spec.relations_pairwise_ne.imp fun hne store => LoaderKind.loader_commute d hne binary store)
  have hsymm : Std.Symm fun first second : Loader => ∀ store,
      second binary (first binary store) = first binary (second binary store) :=
    ⟨fun _ _ h store => (h store).symm⟩
  intro first hfirst second hsecond
  exact hpairwise.forall_of_forall (fun _ _ _ => rfl) hfirst hsecond

lemma populate_of_perm (spec : TargetSpec) (d : Disassembler) {loaders : List Loader}
    (h : loaders.Perm (spec.assemble d).loaders) (name : String) (binary : Binary)
    (store : FactStore) :
    (CompositeLoader.mk name loaders).populate binary store =
      (spec.assemble d).populate binary store := by
  refine (h.symm.foldl_eq' ?_ store).symm
  intro first hfirst second hsecond store
  exact spec.loaders_commute d binary first hfirst second hsecond store

end TargetSpec

/-- Every loader appends to relations of its own, whatever the store holds. The loaders of a target
give the same store in any order, and append the same rows once more in each further run. -/
theorem loaders_append_in_any_order (d : Disassembler) :
    (∀ (kind : LoaderKind) (binary : Binary),
      ∃ added, FactStore.Appends (kind.loader d binary) kind.relations added) ∧
    (∀ a b : LoaderKind, a.relations = b.relations ∨ a.relations.Disjoint b.relations) ∧
    ∀ (spec : TargetSpec) (binary : Binary),
      let run := (spec.assemble d).populate binary
      (spec.assemble d).loaders = spec.kinds.map (·.loader d) ∧
      (spec.kinds.Pairwise fun a b => a.relations.Disjoint b.relations) ∧
      (∀ loaders, loaders.Perm (spec.assemble d).loaders → ∀ name store,
        (CompositeLoader.mk name loaders).populate binary store = run store) ∧
      ∀ count store,
        (run^[count] store).program = store.program ∧
        ∀ program relation,
          (run^[count] store).rows relation = store.rows relation ++
            (List.replicate count ((run (.new program)).rows relation)).flatten ∧
          (run^[count] store).contains relation =
            (store.contains relation || decide (0 < count) &&
              (run (.new program)).contains relation) := by
  refine ⟨fun kind binary => kind.appends_loader d binary,
    fun a b => a.relations_eq_or_disjoint b, fun spec binary => ?_⟩
  have hdisjoint : spec.kinds.Pairwise fun a b => a.relations.Disjoint b.relations :=
    spec.relations_pairwise_ne.imp fun {a b} hne => (a.relations_eq_or_disjoint b).resolve_left hne
  obtain ⟨added, hrun⟩ := spec.appends_populate d binary
  refine ⟨congrArg CompositeLoader.loaders (spec.assemble_eq d), hdisjoint,
    fun loaders hperm name store => spec.populate_of_perm d hperm name binary store, ?_⟩
  intro count store
  refine ⟨hrun.program_iterate count store, fun program relation => ⟨?_, ?_⟩⟩
  · rw [hrun.rows_iterate, hrun.getD_added program]
  · cases count with
    | zero => exact (Bool.or_false _).symm
    | succ count => rw [hrun.contains_iterate, hrun.isSome_added program]; rfl

/-- A code section and a section that starts as zeros, and no exception frames. -/
def frameless : Binary :=
  let code := Binary.raw [1, 2, 3] .x64 .little 0x1000
  let zeros : Section := ⟨".bss", 0x2000, 16, "NOBITS", 1, { loaded := true }, none⟩
  { code with sections := code.sections ++ [zeros] }

theorem loaders_append_in_any_order_reversed :
    let spec := TargetSpec.standard .elf .x64 .little "disasm_x64" .x64
    let assembled := spec.assemble fun _ _ _ => none
    assembled.loaders.reverse.Perm assembled.loaders ∧
      (CompositeLoader.mk "reversed" assembled.loaders.reverse).populate frameless (.new "p") =
        assembled.populate frameless (.new "p") ∧
      (assembled.populate frameless (.new "p")).contains "cie_encoding" = false := by
  refine ⟨List.reverse_perm _, ?_, by decide⟩
  exact ((loaders_append_in_any_order fun _ _ _ => none).2.2 _ frameless).2.2.1 _
    (List.reverse_perm _) "reversed" (.new "p")

end BinaryFacts
