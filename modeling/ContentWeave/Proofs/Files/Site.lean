import ContentWeave.Proofs.Files.Places

/-!
# Directories that can be cleared and made again

The site of a directory is what stands around it: whatever happens at and below the directory, it can
be made, and removed with everything in it.
-/

namespace ContentWeave

namespace Path

def base (here : List Text) (path : Path) : List Text := if isAbsolute path then [] else here

def placesFrom (here : List Text) (path : Path) : List (List Text) :=
  places (base here path) (parts path)

end Path

namespace FileTree

variable {t t' : FileTree} {here names parts : List Text} {path root : Path}

theorem node?_prune (t : FileTree) {names names' : List Text} (h : names' ≠ []) :
    (t.prune names).node? names' = if names <+: names' then none else t.node? names' := by
  have hlookup := Table.lookup_filter_key t.nodes.entries (fun key => !names.isPrefixOf key) names'
  simp only [node?, h, if_false, prune, Table.get?, Table.filter]
  rw [hlookup]
  by_cases hp : names <+: names' <;> simp [← List.isPrefixOf_iff_prefix] at hp ⊢ <;> simp [hp]

/-- Between two trees, directories have been made at some places, and nothing else has changed. -/
structure Made (t : FileTree) (places : List (List Text)) (t' : FileTree) : Prop where
  at_place : ∀ names ∈ places, t'.node? names = some .directory
  elsewhere : ∀ names ∉ places, t'.node? names = t.node? names

namespace Made

variable {place : List Text} {places : List (List Text)}

theorem of_directory (hnode : t.node? place = some .directory) (h : t.Made places t') :
    t.Made (place :: places) t' where
  at_place names hmem := by
    by_cases hplace : names ∈ places
    · exact h.at_place names hplace
    · rw [h.elsewhere names hplace]
      rcases List.mem_cons.1 hmem with rfl | hmem
      · exact hnode
      · exact absurd hmem hplace
  elsewhere names hmem := h.elsewhere names fun hplace => hmem (List.mem_cons_of_mem _ hplace)

theorem of_insert (hne : place ≠ [])
    (h : (FileTree.mk (t.nodes.insert place .directory)).Made places t') :
    t.Made (place :: places) t' := by
  have hnode : (FileTree.mk (t.nodes.insert place .directory)).node? place = some .directory := by
    rw [node?_insert _ _ _ _ hne, if_pos rfl]
  have hmade := of_directory hnode h
  refine ⟨hmade.at_place, fun names hmem => ?_⟩
  rw [hmade.elsewhere names hmem]
  by_cases hnil : names = []
  · simp [hnil, node?]
  · rw [node?_insert _ _ _ _ hnil, if_neg fun heq => hmem (by simp [heq])]

end Made

theorem makeAlong_of_free (hshort : ∀ part ∈ parts, Text.byteLength part ≤ maxName)
    (hfree : ∀ place ∈ Path.places here parts, ∀ bytes, t.node? place ≠ some (.file bytes)) :
    ∃ t', t.makeAlong here parts = .ok t' ∧ t.Made (Path.places here parts) t' := by
  induction parts generalizing t here with
  | nil => exact ⟨t, rfl, ⟨by simp [Path.places], fun _ _ => rfl⟩⟩
  | cons part parts ih =>
    have hrest : ∀ p ∈ parts, Text.byteLength p ≤ maxName := fun p hp => hshort p (by simp [hp])
    rw [Path.places] at hfree ⊢
    rw [makeAlong]
    by_cases hstay : part = [] ∨ part = ['.']
    · rw [if_pos hstay] at hfree ⊢
      rw [if_pos hstay]
      exact ih hrest hfree
    by_cases hup : part = ['.', '.']
    · rw [if_neg hstay, if_pos hup] at hfree ⊢
      rw [if_neg hstay, if_pos hup]
      exact ih hrest hfree
    rw [if_neg hstay, if_neg hup] at hfree ⊢
    rw [if_neg hstay, if_neg hup, if_neg (Nat.not_lt.2 (hshort part (by simp)))]
    have hplace : here ++ [part] ≠ [] := by simp
    have hon : ∀ place ∈ Path.places (here ++ [part]) parts, ∀ bytes,
        t.node? place ≠ some (.file bytes) := fun place hp => hfree place (by simp [hp])
    dsimp only
    cases hnode : t.node? (here ++ [part]) with
    | some node =>
      cases node with
      | file bytes => exact absurd hnode (hfree (here ++ [part]) (by simp) bytes)
      | directory =>
        obtain ⟨t', hmake, hmade⟩ := ih hrest hon
        exact ⟨t', hmake, .of_directory hnode hmade⟩
    | none =>
      have hinserted : ∀ place ∈ Path.places (here ++ [part]) parts, ∀ bytes,
          (FileTree.mk (t.nodes.insert (here ++ [part]) .directory)).node? place ≠
            some (.file bytes) := by
        intro place hp bytes hfile
        rw [node?_insert _ _ _ _ (ne_nil_of_file hfile)] at hfile
        by_cases heq : place = here ++ [part]
        · simp [heq] at hfile
        · rw [if_neg heq] at hfile
          exact hon place hp bytes hfile
      obtain ⟨t', hmake, hmade⟩ := ih hrest hinserted
      exact ⟨t', hmake, .of_insert hplace hmade⟩

theorem walk_of_directories (hshort : ∀ part ∈ parts, Text.byteLength part ≤ maxName)
    (hfounded : ∀ names, names <+: here → t.node? names = some .directory)
    (hplaces : ∀ place ∈ Path.places here parts, t.node? place = some .directory) :
    t.walk here parts = .ok (Path.follow here parts) ∧
      t.node? (Path.follow here parts) = some .directory := by
  induction parts generalizing here with
  | nil => exact ⟨rfl, hfounded here (List.prefix_refl here)⟩
  | cons part parts ih =>
    have hrest : ∀ p ∈ parts, Text.byteLength p ≤ maxName := fun p hp => hshort p (by simp [hp])
    rw [walk, hfounded here (List.prefix_refl here)]
    rw [Path.places] at hplaces
    rw [Path.follow]
    have hlong : ¬ maxName < Text.byteLength part := Nat.not_lt.2 (hshort part (by simp))
    split_ifs at hplaces ⊢ with hstay hup
    · simpa [hstay] using ih hrest hfounded hplaces
    · have habove : ∀ names, names <+: here.dropLast → t.node? names = some .directory :=
        fun names h => hfounded names (h.trans (List.dropLast_prefix here))
      simpa [hstay, hup] using ih hrest habove hplaces
    · have hbelow : ∀ names, names <+: here ++ [part] → t.node? names = some .directory := by
        intro names h
        rcases List.prefix_concat_iff.1 h with rfl | h
        · exact hplaces _ (by simp)
        · exact hfounded names h
      simpa [hstay, hup, hlong] using ih hrest hbelow fun place hp => hplaces place (by simp [hp])

/-- A directory of a root can be made where it is to be, with room for longer paths below it; the way
to it does not lead through it, and where the way begins is not in it. -/
structure Site (t : FileTree) (here : List Text) (root : Path) (room : ℕ) : Prop where
  nul_notMem : '\x00' ∉ root
  length : Text.byteLength root + room < maxPath
  short : ∀ part ∈ Path.parts root, Text.byteLength part ≤ maxName
  founded : ∀ names, names <+: Path.base here root → t.node? names = some .directory
  free : ∀ place ∈ Path.placesFrom here root, ∀ bytes, t.node? place ≠ some (.file bytes)
  straight : ∀ place ∈ Path.placesFrom here root, Path.namesFrom here root <+: place →
    place = Path.namesFrom here root
  apart : ¬ Path.namesFrom here root <+: Path.base here root

namespace Site

variable {room : ℕ} (h : t.Site here root room)

include h

theorem namesFrom_mem : Path.namesFrom here root ∈ Path.placesFrom here root := by
  rcases Path.follow_prefix (Path.base here root) (Path.parts root) with hp | ⟨place, hplace, hp⟩
  · exact absurd hp h.apart
  · have heq : place = Path.namesFrom here root := h.straight place hplace hp
    exact heq ▸ hplace

theorem namesFrom_ne_nil : Path.namesFrom here root ≠ [] := by
  intro hnil
  exact h.apart (hnil ▸ List.nil_prefix)

theorem root_ne_nil : root ≠ [] := by
  rintro rfl
  refine h.apart ?_
  have hnames : Path.namesFrom here [] = here := by
    simp [Path.namesFrom, Path.isAbsolute, Path.parts, Text.splitOn, Path.follow]
  rw [hnames]
  exact List.prefix_refl here

theorem of_outside
    (hout : ∀ names, ¬ Path.namesFrom here root <+: names → t'.node? names = t.node? names)
    (hroot : ∀ bytes, t'.node? (Path.namesFrom here root) ≠ some (.file bytes)) :
    t'.Site here root room where
  nul_notMem := h.nul_notMem
  length := h.length
  short := h.short
  founded names hnames := by
    rw [hout names fun hp => h.apart (hp.trans hnames)]
    exact h.founded names hnames
  free place hplace bytes hfile := by
    by_cases hp : Path.namesFrom here root <+: place
    · exact hroot bytes (h.straight place hplace hp ▸ hfile)
    · rw [hout place hp] at hfile
      exact h.free place hplace bytes hfile
  straight := h.straight
  apart := h.apart

theorem of_made (hmade : t.Made (Path.placesFrom here root) t') : t'.Site here root room where
  nul_notMem := h.nul_notMem
  length := h.length
  short := h.short
  founded names hnames := by
    by_cases hplace : names ∈ Path.placesFrom here root
    · exact hmade.at_place names hplace
    · rw [hmade.elsewhere names hplace]
      exact h.founded names hnames
  free place hplace bytes hfile := by
    rw [hmade.at_place place hplace] at hfile
    cases hfile
  straight := h.straight
  apart := h.apart

theorem makeDirectories : ∃ t', t.makeDirectories here root = .ok t' ∧
    t'.Stands here root (Path.namesFrom here root) ∧ t.Made (Path.placesFrom here root) t' := by
  have hlength := h.length
  obtain ⟨t', hmake, hmade⟩ := makeAlong_of_free h.short h.free
  refine ⟨t', ?_, ?_, hmade⟩
  · rw [FileTree.makeDirectories, if_neg h.nul_notMem, if_neg (by omega)]
    exact hmake
  · obtain ⟨hwalk, hnode⟩ := walk_of_directories h.short (h.of_made hmade).founded hmade.at_place
    refine ⟨?_, hnode⟩
    rw [resolve, if_neg h.nul_notMem, if_neg h.root_ne_nil, if_neg (by omega)]
    exact hwalk

theorem removeTree (hexists : t.exists? here root = true) :
    t.removeTree here root = .ok (t.prune (Path.namesFrom here root)) := by
  unfold exists? at hexists
  cases hresolve : t.resolve here root with
  | error e =>
    rw [hresolve] at hexists
    cases hexists
  | ok names =>
    obtain rfl := resolve_eq hresolve
    rw [hresolve] at hexists
    have hnode : t.node? (Path.namesFrom here root) = some .directory := by
      cases hn : t.node? (Path.namesFrom here root) with
      | none => simp [hn] at hexists
      | some node =>
        cases node with
        | directory => rfl
        | file bytes => exact absurd hn (h.free _ h.namesFrom_mem bytes)
    simp only [FileTree.removeTree, hresolve, bind, Except.bind, hnode]
    rfl

theorem clear (hnothing : t.exists? here root = false →
      ∀ names, Path.namesFrom here root <+: names → t.node? names = none) :
    ∃ t', (if t.exists? here root = true then t.removeTree here root else .ok t) = .ok t' ∧
      (∀ names, Path.namesFrom here root <+: names → t'.node? names = none) ∧
      ∀ names, ¬ Path.namesFrom here root <+: names → t'.node? names = t.node? names := by
  cases hexists : t.exists? here root with
  | false => exact ⟨t, by simp, hnothing hexists, fun _ _ => rfl⟩
  | true =>
    refine ⟨_, by rw [if_pos rfl, h.removeTree hexists], fun names hp => ?_, fun names hp => ?_⟩
    · have hnil : names ≠ [] := by
        rintro rfl
        exact h.namesFrom_ne_nil (List.prefix_nil.1 hp)
      rw [node?_prune _ hnil, if_pos hp]
    · by_cases hnil : names = []
      · simp [hnil, node?]
      · rw [node?_prune _ hnil, if_neg hp]

end Site

end FileTree
end ContentWeave
