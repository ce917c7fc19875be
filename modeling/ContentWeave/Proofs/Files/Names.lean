import ContentWeave.Digest.Sha256
import ContentWeave.Files.Tree
import ContentWeave.Proofs.Text.Splitting

/-!
# The names that paths lead to

The names of a path are read off the path alone: where a tree lets a path lead anywhere, it leads
there. The name of an entry comes behind the names of its directory. Of the files in a tree,
writing touches the one that is written, and making directories touches none.
-/

namespace ContentWeave

namespace Path

structure EntryName (name : Text) : Prop where
  slash_notMem : '/' ∉ name
  not_stays : ¬ (name = [] ∨ name = ['.'])
  not_up : name ≠ ['.', '.']

/-- A name with no dots in it, which stands for itself in every directory. -/
structure PlainName (name : Text) : Prop where
  ne_nil : name ≠ []
  calm : ∀ c ∈ name, c ≠ '/' ∧ c ≠ '.'

def follow : (here parts : List Text) → List Text
  | here, [] => here
  | here, part :: parts =>
    if part = [] ∨ part = ['.'] then follow here parts
    else if part = ['.', '.'] then follow here.dropLast parts
    else follow (here ++ [part]) parts

def namesFrom (here : List Text) (path : Path) : List Text :=
  follow (if isAbsolute path then [] else here) (parts path)

theorem follow_append (here ps qs : List Text) :
    follow here (ps ++ qs) = follow (follow here ps) qs := by
  induction ps generalizing here with
  | nil => rfl
  | cons p ps ih =>
    simp only [List.cons_append, follow]
    split_ifs <;> exact ih _

namespace EntryName

variable {name : Text}

theorem ne_nil (h : EntryName name) : name ≠ [] := fun hnil => h.not_stays (.inl hnil)

theorem of_length (hslash : '/' ∉ name) (hlength : 2 < name.length) : EntryName name where
  slash_notMem := hslash
  not_stays := by
    rintro (rfl | rfl) <;> simp at hlength
  not_up := by
    rintro rfl
    simp at hlength

theorem follow_singleton (h : EntryName name) (here : List Text) :
    follow here [name] = here ++ [name] := by
  simp [follow, h.not_stays, h.not_up]

end EntryName

namespace PlainName

variable {name : Text}

theorem of_all (hne : name ≠ []) (h : name.all (fun c => c != '/' && c != '.') = true) :
    PlainName name := by
  refine ⟨hne, fun c hc => ?_⟩
  have hcalm := List.all_eq_true.1 h c hc
  simpa using hcalm

theorem slash_notMem (h : PlainName name) : '/' ∉ name := fun hs => (h.calm '/' hs).1 rfl

theorem entryName (h : PlainName name) : EntryName name where
  slash_notMem := h.slash_notMem
  not_stays := by
    rintro (rfl | rfl)
    · exact h.ne_nil rfl
    · exact (h.calm '.' (by simp)).2 rfl
  not_up := by
    rintro rfl
    exact (h.calm '.' (by simp)).2 rfl

end PlainName

theorem isAbsolute_eq_false {path : Path} (h : '/' ∉ path) : isAbsolute path = false := by
  unfold isAbsolute
  split
  · exact absurd List.mem_cons_self h
  · rfl

theorem isAbsolute_append {directory : Path} (h : directory ≠ []) (rest : Path) :
    isAbsolute (directory ++ rest) = isAbsolute directory := by
  obtain ⟨c, cs, rfl⟩ := List.exists_cons_of_ne_nil h
  by_cases hc : c = '/'
  · simp [hc, isAbsolute]
  · simp [isAbsolute, hc]

section Join

variable {directory : Path} {name : Text} (h : '/' ∉ name)

include h

theorem join_cases (hd : directory ≠ []) :
    (∃ d, directory = d ++ ['/'] ∧ join directory name = directory ++ name) ∨
      join directory name = directory ++ '/' :: name := by
  unfold join
  split_ifs with hplain hslash
  · rw [isAbsolute_eq_false h] at hplain
    exact absurd hplain (by simp [hd])
  · obtain ⟨d, hd⟩ := List.getLast?_eq_some_iff.1 hslash
    exact .inl ⟨d, hd, rfl⟩
  · exact .inr rfl

variable (directory) in
theorem join_front : ∃ front, join directory name = front ++ name ∧
    (front = directory ∨ front = directory ++ ['/']) := by
  by_cases hd : directory = []
  · exact ⟨[], by simp [hd, join], .inl hd.symm⟩
  · rcases join_cases h hd with ⟨-, -, hjoin⟩ | hjoin
    · exact ⟨directory, hjoin, .inl rfl⟩
    · exact ⟨directory ++ ['/'], by simp [hjoin], .inr rfl⟩

theorem parts_join (hd : directory ≠ []) :
    ∃ ps, parts (join directory name) = ps ++ [name] ∧
      (parts directory = ps ∨ parts directory = ps ++ [[]]) := by
  have hparts : parts name = [name] := Text.splitOn_of_notMem h
  rcases join_cases h hd with ⟨d, rfl, hjoin⟩ | hjoin
  · refine ⟨parts d, ?_, .inr (Text.splitOn_append '/' d [])⟩
    rw [hjoin, List.append_assoc, List.singleton_append, parts, Text.splitOn_append, ← parts,
      ← parts, hparts]
  · refine ⟨parts directory, ?_, .inl rfl⟩
    rw [hjoin, parts, Text.splitOn_append, ← parts, ← parts, hparts]

theorem isAbsolute_join (hd : directory ≠ []) :
    isAbsolute (join directory name) = isAbsolute directory := by
  rcases join_cases h hd with ⟨-, -, hjoin⟩ | hjoin
  · rw [hjoin, isAbsolute_append hd]
  · rw [hjoin, isAbsolute_append hd]

end Join

theorem namesFrom_join {name : Text} (h : EntryName name) (here : List Text) (directory : Path) :
    namesFrom here (join directory name) = namesFrom here directory ++ [name] := by
  by_cases hd : directory = []
  · subst hd
    have hjoin : join [] name = name := by simp [join]
    have hempty : namesFrom here [] = here := by
      simp [namesFrom, isAbsolute, parts, Text.splitOn, follow]
    have hparts : parts name = [name] := Text.splitOn_of_notMem h.slash_notMem
    rw [hjoin, hempty, namesFrom, isAbsolute_eq_false h.slash_notMem, hparts]
    exact h.follow_singleton here
  · obtain ⟨ps, hjoin, hparts⟩ := parts_join h.slash_notMem hd
    have hstay : ∀ there, follow there (parts directory) = follow there ps := by
      intro there
      rcases hparts with hparts | hparts
      · rw [hparts]
      · rw [hparts, follow_append]
        simp [follow]
    rw [namesFrom, namesFrom, hjoin, isAbsolute_join h.slash_notMem hd, follow_append, hstay]
    exact h.follow_singleton _

end Path

theorem Bytes.mem_hex {bytes : Bytes} {c : Char} (h : c ∈ hex bytes) :
    ∃ n < 16, c = hexDigit n := by
  obtain ⟨b, -, hc⟩ := List.mem_flatMap.1 h
  have hb : b.toNat < 256 := b.toNat_lt
  simp only [List.mem_cons, List.not_mem_nil, or_false] at hc
  rcases hc with hc | hc
  · exact ⟨b.toNat / 16, by omega, hc⟩
  · exact ⟨b.toNat % 16, by omega, hc⟩

theorem Bytes.length_hex (bytes : Bytes) : (hex bytes).length = 2 * bytes.length := by
  induction bytes with
  | nil => rfl
  | cons b bytes ih =>
    rw [hex, List.flatMap_cons, List.length_append, ← hex, ih, List.length_cons]
    simp only [List.length_cons, List.length_nil]
    omega

theorem Digest.length_sha256 (message : Bytes) : (sha256 message).length = 32 := by
  simp [sha256, wordBytes]

theorem Digest.plainName_nameOf (s : Text) : Path.PlainName (nameOf s) := by
  constructor
  · have hlength : (nameOf s).length = 64 := by
      rw [nameOf, Bytes.length_hex, length_sha256]
    intro h
    simp [h] at hlength
  · intro c hc
    obtain ⟨n, hn, rfl⟩ := Bytes.mem_hex hc
    have hdigits : ∀ n < 16, Bytes.hexDigit n ≠ '/' ∧ Bytes.hexDigit n ≠ '.' := by decide
    exact hdigits n hn

namespace FileTree

theorem walk_eq {t : FileTree} {here parts names : List Text} (h : t.walk here parts = .ok names) :
    names = Path.follow here parts := by
  induction parts generalizing here with
  | nil =>
    cases h
    rfl
  | cons part parts ih =>
    rw [walk] at h
    split at h
    · cases h
    · cases h
    · rw [Path.follow]
      split_ifs at h ⊢ with hstay hup hlong
      · exact ih h
      · exact ih h
      · exact ih h

theorem resolve_eq {t : FileTree} {here names : List Text} {path : Path}
    (h : t.resolve here path = .ok names) : names = Path.namesFrom here path := by
  unfold resolve at h
  split at h
  · cases h
  split at h
  · cases h
  split at h
  · cases h
  exact walk_eq h

theorem node?_of_read {t : FileTree} {here : List Text} {path : Path} {content : Bytes}
    (h : t.read here path = .ok content) :
    t.node? (Path.namesFrom here path) = some (.file content) := by
  unfold read at h
  cases hr : t.resolve here path with
  | error e =>
    rw [hr] at h
    cases h
  | ok names =>
    have hnames := resolve_eq hr
    subst hnames
    rw [hr] at h
    cases hn : t.node? (Path.namesFrom here path) with
    | none => simp [bind, Except.bind, hn, throw, throwThe, MonadExceptOf.throw] at h
    | some node =>
      cases node with
      | directory => simp [bind, Except.bind, hn, throw, throwThe, MonadExceptOf.throw] at h
      | file bytes =>
        simp [bind, Except.bind, hn, pure, Except.pure] at h
        rw [h]

theorem node?_insert (t : FileTree) (names names' : List Text) (node : FileNode)
    (h : names' ≠ []) :
    (FileTree.mk (t.nodes.insert names node)).node? names' =
      if names' = names then some node else t.node? names' := by
  simp [node?, h, Table.get?_insert]

theorem ne_nil_of_file {t : FileTree} {names : List Text} {bytes : Bytes}
    (h : t.node? names = some (.file bytes)) : names ≠ [] := by
  rintro rfl
  simp [node?] at h

theorem file_of_write {t t' : FileTree} {here names : List Text} {path : Path}
    {content bytes : Bytes} (h : t.write here path content = .ok t')
    (hf : t'.node? names = some (.file bytes)) :
    names = Path.namesFrom here path ∧ bytes = content ∨ t.node? names = some (.file bytes) := by
  unfold write at h
  cases hr : t.resolve here path with
  | error e =>
    rw [hr] at h
    cases h
  | ok target =>
    have htarget := resolve_eq hr
    subst htarget
    have ht' : t' = ⟨t.nodes.insert (Path.namesFrom here path) (.file content)⟩ := by
      rw [hr] at h
      simp only [bind, Except.bind] at h
      split at h
      · cases h
      · cases h
        rfl
    rw [ht', node?_insert _ _ _ _ (ne_nil_of_file hf)] at hf
    split_ifs at hf with heq
    · cases hf
      exact .inl ⟨heq, rfl⟩
    · exact .inr hf

theorem file_of_makeAlong {t t' : FileTree} {here parts names : List Text} {bytes : Bytes}
    (h : t.makeAlong here parts = .ok t') (hf : t'.node? names = some (.file bytes)) :
    t.node? names = some (.file bytes) := by
  induction parts generalizing t here with
  | nil =>
    cases h
    exact hf
  | cons part parts ih =>
    rw [makeAlong] at h
    split at h
    · exact ih h
    split at h
    · exact ih h
    split at h
    · cases h
    dsimp only at h
    split at h
    · exact ih h
    · cases h
    · have hmade := ih h
      rw [node?_insert _ _ _ _ (ne_nil_of_file hf)] at hmade
      split_ifs at hmade
      · cases hmade
      · exact hmade

theorem file_of_makeDirectories {t t' : FileTree} {here names : List Text} {path : Path}
    {bytes : Bytes} (h : t.makeDirectories here path = .ok t')
    (hf : t'.node? names = some (.file bytes)) : t.node? names = some (.file bytes) := by
  unfold makeDirectories at h
  split at h
  · cases h
  split at h
  · cases h
  exact file_of_makeAlong h hf

end FileTree
end ContentWeave
