import CellGraph.Script.References
import Mathlib.Data.List.Sort

/-!
# References by their addresses

An address leads from a syntax tree to a tree inside it: the numbers of the parts on the way down (`Node.at?`). In the
order of addresses, a tree stands before its parts, and the parts stand one behind the other. `Node.placed` lists what
is inside a tree in this order, each tree with its address (`mem_placed_iff`, `pairwise_placed`).

`Lists` says that a list of texts is exactly what can be found in a tree, in this order and with repetitions, and no
other list is (`Lists.unique`). The imports of a tree are listed so, wherever the declarations stand, and its
attachments are, wherever the calls stand (`lists_collect`).
-/

namespace CellGraph.Script

namespace Node

/-! ## Addresses -/

/-- The tree at an address. -/
def at? : Node → List Nat → Option Node
  | node, [] => some node
  | mk _ parts, i :: address => parts[i]?.bind fun part => part.at? address

mutual

/-- The trees inside a tree with their addresses, itself first, each before its parts. -/
def placed : Node → List (List Nat × Node)
  | mk kind parts => ([], mk kind parts) :: placedFrom 0 parts

/-- The trees inside a list of trees that are parts from a number on. -/
def placedFrom (i : Nat) : List Node → List (List Nat × Node)
  | [] => []
  | node :: nodes => (placed node).map (fun place => (i :: place.1, place.2)) ++ placedFrom (i + 1) nodes

end

mutual

theorem map_snd_placed : ∀ node : Node, node.placed.map Prod.snd = node.preorder
  | mk kind parts => by rw [placed, preorder, List.map_cons, map_snd_placedFrom 0 parts]

theorem map_snd_placedFrom (i : Nat) : ∀ nodes : List Node, (placedFrom i nodes).map Prod.snd = preorderAll nodes
  | [] => rfl
  | node :: nodes => by
    rw [placedFrom, preorderAll, List.map_append, List.map_map, map_snd_placedFrom (i + 1) nodes, ← map_snd_placed node]
    rfl

end

mutual

/-- What is listed is what the addresses lead to. -/
theorem mem_placed_iff : ∀ (node : Node) (address : List Nat) (inner : Node),
    (address, inner) ∈ node.placed ↔ node.at? address = some inner
  | mk kind parts, [], inner => by
    have hparts : ([], inner) ∉ placedFrom 0 parts := by simp [mem_placedFrom_iff]
    simp [placed, at?, hparts, eq_comm]
  | mk kind parts, i :: address, inner => by
    simp [placed, at?, mem_placedFrom_iff, Option.bind_eq_some_iff]

theorem mem_placedFrom_iff : ∀ (nodes : List Node) (i : Nat) (address : List Nat) (inner : Node),
    (address, inner) ∈ placedFrom i nodes ↔
      ∃ j rest part, address = (i + j) :: rest ∧ nodes[j]? = some part ∧ part.at? rest = some inner
  | [], i, address, inner => by simp [placedFrom]
  | node :: nodes, i, address, inner => by
    have hfirst : (address, inner) ∈ node.placed.map (fun place => (i :: place.1, place.2)) ↔
        ∃ rest, address = i :: rest ∧ node.at? rest = some inner := by
      simp only [List.mem_map, Prod.mk.injEq, Prod.exists]
      constructor
      · rintro ⟨rest, other, hmem, rfl, rfl⟩
        exact ⟨rest, rfl, (mem_placed_iff node rest other).mp hmem⟩
      · rintro ⟨rest, rfl, hat⟩
        exact ⟨rest, inner, (mem_placed_iff node rest inner).mpr hat, rfl, rfl⟩
    rw [placedFrom, List.mem_append, hfirst, mem_placedFrom_iff nodes (i + 1) address inner]
    constructor
    · rintro (⟨rest, rfl, hat⟩ | ⟨j, rest, part, rfl, hpart, hat⟩)
      · exact ⟨0, rest, node, rfl, rfl, hat⟩
      · exact ⟨j + 1, rest, part, by rw [Nat.add_right_comm, Nat.add_assoc], hpart, hat⟩
    · rintro ⟨j, rest, part, rfl, hpart, hat⟩
      cases j with
      | zero =>
        cases hpart
        exact Or.inl ⟨rest, rfl, hat⟩
      | succ j => exact Or.inr ⟨j, rest, part, by rw [Nat.add_right_comm, Nat.add_assoc], hpart, hat⟩

end

mutual

/-- A tree is listed before its parts, and these one behind the other. -/
theorem pairwise_placed : ∀ node : Node, node.placed.Pairwise fun a b => a.1 < b.1
  | mk kind parts => by
    rw [placed]
    refine List.pairwise_cons.mpr ⟨?_, pairwise_placedFrom 0 parts⟩
    rintro ⟨address, inner⟩ hmem
    obtain ⟨j, rest, -, rfl, -, -⟩ := (mem_placedFrom_iff parts 0 address inner).mp hmem
    exact List.nil_lt_cons _ _

theorem pairwise_placedFrom (i : Nat) : ∀ nodes : List Node, (placedFrom i nodes).Pairwise fun a b => a.1 < b.1
  | [] => .nil
  | node :: nodes => by
    rw [placedFrom]
    refine List.pairwise_append.mpr ⟨?_, pairwise_placedFrom (i + 1) nodes, ?_⟩
    · refine List.pairwise_map.mpr ((pairwise_placed node).imp ?_)
      intro a b hlt
      exact List.cons_lt_cons_iff.mpr (Or.inr ⟨rfl, hlt⟩)
    · intro a ha b hb
      obtain ⟨place, -, rfl⟩ := List.mem_map.mp ha
      obtain ⟨j, rest, -, hb, -, -⟩ := (mem_placedFrom_iff nodes (i + 1) b.1 b.2).mp hb
      rw [hb]
      exact List.cons_lt_cons_iff.mpr (Or.inl (by omega))

end

/-! ## What is found in a tree -/

/-- Whether a list of texts is exactly what can be found in a tree, in the order of the addresses where it is found. -/
def Lists (tree : Node) (finds : Node → String → Prop) (texts : List String) : Prop :=
  ∃ addresses : List (List Nat), addresses.Pairwise (· < ·) ∧
    (∀ address, address ∈ addresses ↔ ∃ node text, tree.at? address = some node ∧ finds node text) ∧
    List.Forall₂ (fun address text => ∃ node, tree.at? address = some node ∧ finds node text) addresses texts

variable {tree : Node} {finds : Node → String → Prop} {texts : List String}

/-- Where one tree has one text, no other list is. -/
theorem Lists.unique (hone : ∀ node text other, finds node text → finds node other → text = other)
    {others : List String} (h : Lists tree finds texts) (hothers : Lists tree finds others) : texts = others := by
  obtain ⟨addresses, hsorted, hmem, htexts⟩ := h
  obtain ⟨addresses', hsorted', hmem', htexts'⟩ := hothers
  obtain rfl : addresses = addresses' :=
    List.Pairwise.eq_of_mem_iff hsorted hsorted' fun address => (hmem address).trans (hmem' address).symm
  clear hsorted hsorted' hmem hmem'
  induction htexts generalizing others with
  | nil => cases htexts'; rfl
  | cons hfirst _ ih =>
    cases htexts' with
    | cons hfirst' hrest' =>
      obtain ⟨node, hat, hfinds⟩ := hfirst
      obtain ⟨node', hat', hfinds'⟩ := hfirst'
      obtain rfl : node = node' := Option.some.inj (hat.symm.trans hat')
      rw [hone node _ _ hfinds hfinds', ih hrest']

/-- What a function finds in the trees inside a tree, one after the other, is what can be found there. -/
theorem lists_filterMap {find : Node → Option String} (h : ∀ node text, find node = some text ↔ finds node text)
    (tree : Node) : Lists tree finds (tree.preorder.filterMap find) := by
  refine ⟨(tree.placed.filter fun place => (find place.2).isSome).map Prod.fst, ?_, ?_, ?_⟩
  · exact List.pairwise_map.mpr ((pairwise_placed tree).filter _)
  · intro address
    simp only [List.mem_map, List.mem_filter, Prod.exists, exists_and_right, exists_eq_right, mem_placed_iff,
      Option.isSome_iff_exists, h, exists_and_left]
  · have hplaces : ∀ place ∈ tree.placed, tree.at? place.1 = some place.2 := fun place hmem =>
      (mem_placed_iff tree place.1 place.2).mp hmem
    rw [← map_snd_placed]
    generalize tree.placed = places at hplaces
    induction places with
    | nil => exact .nil
    | cons place places ih =>
      obtain ⟨hplace, hplaces⟩ := List.forall_mem_cons.mp hplaces
      cases hfind : find place.2 with
      | none =>
        simpa [hfind] using ih hplaces
      | some text =>
        have hfirst : ∃ node, tree.at? place.1 = some node ∧ finds node text :=
          ⟨place.2, hplace, (h _ _).mp hfind⟩
        simpa [hfind] using List.Forall₂.cons hfirst (ih hplaces)

/-! ## Imports and attachments -/

/-- Whether a tree is a declaration that takes something from a source: an import, or an export that names one. -/
inductive TakesFrom : Node → String → Prop
  | imports (source : String) (parts : List Node) : TakesFrom (mk (.importDeclaration source) parts) source
  | exportsAll (source : String) (name : Option String) (parts : List Node) :
      TakesFrom (mk (.exportAll source name) parts) source
  | exportsNamed (source : String) (names : List String) (parts : List Node) :
      TakesFrom (mk (.exportNamed (some source) names) parts) source

/-- Whether a tree is a string literal, or a template without substitutions, with a value. -/
inductive IsLiteral : Node → String → Prop
  | string (value : String) (parts : List Node) : IsLiteral (mk (.string value) parts) value
  | template (value : String) (chunks : List (Option String)) :
      IsLiteral (mk (.template (some value :: chunks)) []) value

/-- Whether a tree is a call of the function with the given name, with a literal as its first argument. -/
inductive CallsWith (function : String) : Node → String → Prop
  | call {argument : Node} {text : String} (parts rest : List Node) (literal : IsLiteral argument text) :
      CallsWith function (mk .call (mk (.name function) parts :: argument :: rest)) text

/-- Whether a source starts with a point or a slash. -/
def StartsLocally (source : String) : Prop := source.toList.head? = some '.' ∨ source.toList.head? = some '/'

theorem isLocal_iff {source : String} : isLocal source = true ↔ StartsLocally source := by
  unfold isLocal StartsLocally
  cases source.toList <;> simp

theorem moduleSource?_eq_some_iff {node : Node} {source : String} :
    node.moduleSource? = some source ↔ TakesFrom node source := by
  constructor
  · intro h
    unfold moduleSource? at h
    split at h
    · cases h; exact .imports _ _
    · cases h; exact .exportsAll _ _ _
    · subst h; exact .exportsNamed _ _ _
    · cases h
  · rintro (_ | _ | _) <;> rfl

theorem literalText?_eq_some_iff {node : Node} {text : String} :
    node.literalText? = some text ↔ IsLiteral node text := by
  constructor
  · intro h
    unfold literalText? at h
    split at h
    · cases h; exact .string _ _
    · subst h; exact .template _ _
    · cases h
  · rintro (_ | _) <;> rfl

theorem attachment?_eq_some_iff {function : String} {node : Node} {text : String} :
    node.attachment? function = some text ↔ CallsWith function node text := by
  constructor
  · intro h
    unfold attachment? at h
    split at h
    · split at h
      case isTrue hname => subst hname; exact .call _ _ (literalText?_eq_some_iff.mp h)
      case isFalse => cases h
    · cases h
  · rintro ⟨parts, rest, hliteral⟩
    simp [attachment?, literalText?_eq_some_iff.mpr hliteral]

/-- A declaration has one source. -/
theorem TakesFrom.unique {node : Node} {source other : String} (h : TakesFrom node source)
    (hother : TakesFrom node other) :
    source = other :=
  Option.some.inj ((moduleSource?_eq_some_iff.mpr h).symm.trans (moduleSource?_eq_some_iff.mpr hother))

/-- The imports that are collected are the local sources of all declarations inside a tree, whichever function attaches
files. The attachments are the literals that this function is called with, anywhere inside, a call before its own parts,
and there are none without such a function. -/
theorem lists_collect (tree : Node) :
    (∀ attachmentFunction, Lists tree (fun node source => TakesFrom node source ∧ StartsLocally source)
      (tree.collect attachmentFunction).imports) ∧
    (∀ attachmentFunction other, (tree.collect attachmentFunction).imports = (tree.collect other).imports) ∧
    (∀ function, Lists tree (CallsWith function) (tree.collect (some function)).attachments) ∧
    (tree.collect none).attachments = [] := by
  have himports : ∀ attachmentFunction, Lists tree (fun node source => TakesFrom node source ∧ StartsLocally source)
      (tree.collect attachmentFunction).imports := by
    intro attachmentFunction
    rw [imports_collect]
    refine lists_filterMap (fun node source => ?_) tree
    rw [Option.filter_eq_some_iff, moduleSource?_eq_some_iff, isLocal_iff]
  refine ⟨himports, ?_, ?_, ?_⟩
  · intro attachmentFunction other
    exact Lists.unique (fun _ _ _ h hother => h.1.unique hother.1) (himports attachmentFunction) (himports other)
  · intro function
    rw [attachments_collect]
    exact lists_filterMap (fun _ _ => attachment?_eq_some_iff) tree
  · rw [attachments_collect]
    simp

end Node

end CellGraph.Script
