import PackLint.Pack.FileKind
import PackLint.Proofs.Text.Cut
import PackLint.Proofs.Text.Glob
import Mathlib.Data.List.Infix

/-!
# The kind of a file in a pack

The kind of a file (`find_schema`) is that of the first kind whose folder is found among the folders
of its path: directly in the folder of the server, or in that of the packs. A pack should be read
like the folder of the server, but in the folder of the packs the folder of a kind may lie at any
depth, while below that of the server it must lie at the top. So a file may be of one kind there and
of another in a pack.

Results:
* `FileKind.any_globMatches_iff`: which paths the globs of a kind match, by the folders of the path.
* `FileKind.leads_pack`, `FileKind.leads_server`: the kinds that the folders of a file lead to.
* `FileKind.ofPath?_packPath_eq_iff`: when a file has the same kind in both places.
-/

namespace PackLint

namespace FileKind

/-- The folder of the server that holds the files and the packs. -/
def serverFolder : List Char := "MythicMobs".toList

/-- The folder that holds the packs. -/
def packsFolder : List Char := "Packs".toList

/-- The name of the folder of a kind. -/
def folderName (kind : FileKind) : List Char := kind.folder.toList

/-- The folders lead to files of a kind: the folder of the kind lies in that of the server, or
somewhere behind a folder of a pack. -/
def Leads (kind : FileKind) (folders : List (List Char)) : Prop :=
  [serverFolder, kind.folderName] <:+: folders ∨
    ∃ between ≠ [], [serverFolder, packsFolder] ++ between ++ [kind.folderName] <:+: folders

/-- The path ends like that of a file with a kind. -/
def HasExtension (path : List Char) : Prop := ∃ e ∈ extensions, '.' :: e.toList <:+ path

variable {kind : FileKind} {path : List Char}

theorem slash_not_mem_folderName (kind : FileKind) : '/' ∉ kind.folderName := by
  cases kind <;> decide

theorem slash_not_mem_extension {e : String} (he : e ∈ extensions) : '/' ∉ '.' :: e.toList := by
  revert e
  decide

theorem plain_extension {e : String} (he : e ∈ extensions) : Glob.Plain ('.' :: e.toList) := by
  revert e
  decide

theorem toList_serverGlob (kind : FileKind) (e : String) :
    ("*/MythicMobs/" ++ kind.folder ++ "/*." ++ e).toList =
      Glob.starred [enclosed '/' [serverFolder, kind.folderName], '.' :: e.toList] := by
  have hfront : "*/MythicMobs/".toList = '*' :: '/' :: (serverFolder ++ ['/']) := by decide
  have hback : "/*.".toList = ['/', '*', '.'] := by decide
  simp only [String.toList_append, hfront, hback, folderName, Glob.starred, enclosed, joinWith,
    List.flatMap_cons, List.flatMap_nil, List.cons_append, List.append_assoc, List.nil_append,
    List.append_nil]

theorem toList_packsGlob (kind : FileKind) (e : String) :
    ("*/MythicMobs/Packs/*/" ++ kind.folder ++ "/*." ++ e).toList =
      Glob.starred [enclosed '/' [serverFolder, packsFolder], enclosed '/' [kind.folderName],
        '.' :: e.toList] := by
  have hfront : "*/MythicMobs/Packs/*/".toList =
      '*' :: '/' :: (serverFolder ++ '/' :: (packsFolder ++ ['/', '*', '/'])) := by decide
  have hback : "/*.".toList = ['/', '*', '.'] := by decide
  simp only [String.toList_append, hfront, hback, folderName, Glob.starred, enclosed, joinWith,
    List.flatMap_cons, List.flatMap_nil, List.cons_append, List.append_assoc, List.nil_append,
    List.append_nil]

/-- The glob of the files below the folder of the server. -/
theorem globMatches_server {e : String} (he : e ∈ extensions) :
    globMatches ("*/MythicMobs/" ++ kind.folder ++ "/*." ++ e) path ↔
      '.' :: e.toList <:+ path ∧ [serverFolder, kind.folderName] <:+: innerPieces '/' path := by
  have hplain : Glob.Plain (enclosed '/' [serverFolder, kind.folderName]) := by
    cases kind <;> decide
  have hslash : ∀ p ∈ [serverFolder, kind.folderName], '/' ∉ p := by
    cases kind <;> decide
  rw [Glob.globMatches_starred (toList_serverGlob kind e) (List.forall_mem_cons.mpr
    ⟨hplain, List.forall_mem_singleton.mpr (plain_extension he)⟩), Glob.spread_pair,
    ← enclosed_infix_iff (List.cons_ne_nil _ _) hslash]
  constructor
  · rintro ⟨front, rest, rfl, hstop⟩
    exact ⟨(suffix_append_enclosed_iff (slash_not_mem_extension he) _ _).mpr hstop,
      List.infix_append _ _ _⟩
  · rintro ⟨hstop, front, rest, rfl⟩
    exact ⟨front, rest, rfl, (suffix_append_enclosed_iff (slash_not_mem_extension he) _ _).mp hstop⟩

/-- The glob of the files in packs. -/
theorem globMatches_packs {e : String} (he : e ∈ extensions) :
    globMatches ("*/MythicMobs/Packs/*/" ++ kind.folder ++ "/*." ++ e) path ↔
      '.' :: e.toList <:+ path ∧ ∃ between ≠ [],
        [serverFolder, packsFolder] ++ between ++ [kind.folderName] <:+: innerPieces '/' path := by
  have hplain : Glob.Plain (enclosed '/' [kind.folderName]) := by
    cases kind <;> decide
  have hslash : ∀ p ∈ [serverFolder, packsFolder], '/' ∉ p := by decide
  rw [Glob.globMatches_starred (toList_packsGlob kind e) (List.forall_mem_cons.mpr
      ⟨by decide, List.forall_mem_cons.mpr
        ⟨hplain, List.forall_mem_singleton.mpr (plain_extension he)⟩⟩),
    ← enclosed_append_infix_iff (List.cons_ne_nil _ _) (List.cons_ne_nil _ _) hslash
      (List.forall_mem_singleton.mpr (slash_not_mem_folderName kind)), Glob.Spread]
  simp only [Glob.spread_pair]
  constructor
  · rintro ⟨front, _, rfl, gap, rest, rfl, hstop⟩
    have hassoc : front ++ enclosed '/' [serverFolder, packsFolder] ++
        (gap ++ enclosed '/' [kind.folderName] ++ rest) =
      front ++ enclosed '/' [serverFolder, packsFolder] ++ gap ++
        enclosed '/' [kind.folderName] ++ rest := by simp
    rw [hassoc, suffix_append_enclosed_iff (slash_not_mem_extension he)]
    exact ⟨hstop, gap, front, rest, by simp⟩
  · rintro ⟨hstop, gap, front, rest, rfl⟩
    have hassoc : front ++ (enclosed '/' [serverFolder, packsFolder] ++ gap ++
        enclosed '/' [kind.folderName]) ++ rest =
      front ++ enclosed '/' [serverFolder, packsFolder] ++ gap ++
        enclosed '/' [kind.folderName] ++ rest := by simp
    rw [hassoc, suffix_append_enclosed_iff (slash_not_mem_extension he)] at hstop
    exact ⟨front, gap ++ enclosed '/' [kind.folderName] ++ rest, by simp, gap, rest, rfl, hstop⟩

/-- **Which paths are those of files of a kind.** -/
theorem any_globMatches_iff : (kind.globs.any fun glob => globMatches glob path) ↔
    HasExtension path ∧ kind.Leads (innerPieces '/' path) := by
  simp only [globs, List.any_eq_true, List.mem_flatMap]
  constructor
  · rintro ⟨glob, ⟨e, he, hglob⟩, hmatch⟩
    rcases List.mem_cons.mp hglob with rfl | hglob
    · obtain ⟨hstop, hleads⟩ := (globMatches_server he).mp hmatch
      exact ⟨⟨e, he, hstop⟩, Or.inl hleads⟩
    · obtain rfl := List.mem_singleton.mp hglob
      obtain ⟨hstop, hleads⟩ := (globMatches_packs he).mp hmatch
      exact ⟨⟨e, he, hstop⟩, Or.inr hleads⟩
  · rintro ⟨⟨e, he, hstop⟩, hleads | hleads⟩
    · exact ⟨_, ⟨e, he, List.mem_cons_self⟩, (globMatches_server he).mpr ⟨hstop, hleads⟩⟩
    · exact ⟨_, ⟨e, he, List.mem_cons_of_mem _ List.mem_cons_self⟩,
        (globMatches_packs he).mpr ⟨hstop, hleads⟩⟩

/-! ## Which folders lead to files of a kind -/

theorem serverFolder_ne_packsFolder : serverFolder ≠ packsFolder := by decide

theorem folderName_ne_serverFolder (kind : FileKind) : kind.folderName ≠ serverFolder := by
  cases kind <;> decide

theorem folderName_ne_packsFolder (kind : FileKind) : kind.folderName ≠ packsFolder := by
  cases kind <;> decide

theorem folderName_inj {kind kind' : FileKind} :
    kind.folderName = kind'.folderName ↔ kind = kind' := by
  cases kind <;> cases kind' <;> decide

/-- Somewhere behind the folder of a pack lies the folder of the kind. -/
def InPack (kind : FileKind) (folders : List (List Char)) : Prop :=
  ∃ front inside, folders = front ++ serverFolder :: packsFolder :: inside ∧
    kind.folderName ∈ inside.tail

variable {folders outer inner : List (List Char)}

theorem leads_iff : kind.Leads folders ↔
    [serverFolder, kind.folderName] <:+: folders ∨ kind.InPack folders := by
  refine or_congr_right ?_
  constructor
  · rintro ⟨between, hbetween, front, rest, rfl⟩
    refine ⟨front, between ++ kind.folderName :: rest, by simp, ?_⟩
    rw [List.tail_append_of_ne_nil hbetween]
    exact List.mem_append_right _ List.mem_cons_self
  · rintro ⟨front, inside, rfl, hmem⟩
    cases inside with
    | nil => cases hmem
    | cons pack inside =>
      obtain ⟨between, rest, rfl⟩ := List.append_of_mem (List.tail_cons ▸ hmem)
      exact ⟨pack :: between, List.cons_ne_nil _ _, front, rest, by simp⟩

/-- Two folders are found in front of a third or from there on, unless the third is the second of
them. -/
theorem pair_infix_append_cons {a b c : List Char} (h : b ≠ c) :
    [a, b] <:+: outer ++ c :: inner ↔ [a, b] <:+: outer ∨ [a, b] <:+: c :: inner := by
  rw [List.infix_append_iff_ne_nil, ← or_assoc, or_iff_left]
  rintro ⟨l, l', hl, hl', hpair, -, hfirst⟩
  obtain ⟨d, l, rfl⟩ := List.exists_cons_of_ne_nil hl
  obtain ⟨d', l', rfl⟩ := List.exists_cons_of_ne_nil hl'
  obtain rfl : l = [] := by
    have hlength := congrArg List.length hpair
    simp only [List.length_append, List.length_cons, List.length_nil] at hlength
    exact List.length_eq_zero_iff.mp (by omega)
  obtain ⟨-, rfl, -⟩ : a = d ∧ b = d' ∧ [] = l' := by simpa using hpair
  exact h (List.cons_prefix_cons.mp hfirst).1

/-- The folder of the server may be that of an outer server, in whose packs all folders lie. -/
theorem inPack_append_cons : kind.InPack (outer ++ serverFolder :: inner) ↔
    kind.InPack outer ∨ [serverFolder, packsFolder] <:+: outer ∧ kind.folderName ∈ inner ∨
      kind.InPack (serverFolder :: inner) := by
  constructor
  · rintro ⟨front, inside, heq, hmem⟩
    rcases List.append_eq_append_iff.mp heq with ⟨more, rfl, hinner⟩ | ⟨more, rfl, hinner⟩
    · exact Or.inr (Or.inr ⟨more, inside, hinner, hmem⟩)
    · rcases more with _ | ⟨first, _ | ⟨second, more⟩⟩
      · exact Or.inr (Or.inr ⟨[], inside, hinner.symm, hmem⟩)
      · simp only [List.cons_append, List.nil_append, List.cons.injEq] at hinner
        exact absurd hinner.2.1.symm serverFolder_ne_packsFolder
      · simp only [List.cons_append, List.cons.injEq] at hinner
        obtain ⟨rfl, rfl, rfl⟩ := hinner
        have hpacks :
            [serverFolder, packsFolder] <:+: front ++ serverFolder :: packsFolder :: more :=
          ⟨front, more, by simp⟩
        cases more with
        | nil => exact Or.inr (Or.inl ⟨hpacks, hmem⟩)
        | cons pack more =>
          rcases List.mem_append.mp hmem with hmem | hmem
          · exact Or.inl ⟨front, pack :: more, rfl, hmem⟩
          · rcases List.mem_cons.mp hmem with hmem | hmem
            · exact absurd hmem (folderName_ne_serverFolder kind)
            · exact Or.inr (Or.inl ⟨hpacks, hmem⟩)
  · rintro (⟨front, inside, rfl, hmem⟩ | ⟨⟨front, inside, rfl⟩, hmem⟩ |
      ⟨front, inside, hinner, hmem⟩)
    · refine ⟨front, inside ++ serverFolder :: inner, by simp, ?_⟩
      cases inside with
      | nil => cases hmem
      | cons pack inside => exact List.mem_append_left _ hmem
    · refine ⟨front, inside ++ serverFolder :: inner, by simp, ?_⟩
      cases inside with
      | nil => exact hmem
      | cons pack inside => exact List.mem_append_right _ (List.mem_cons_of_mem _ hmem)
    · exact ⟨outer ++ front, inside, by rw [hinner, List.append_assoc], hmem⟩

/-- In the folder of the packs, the folder of the kind may lie anywhere but at the top. -/
theorem inPack_packs : kind.InPack (serverFolder :: packsFolder :: inner) ↔
    kind.folderName ∈ inner.tail := by
  constructor
  · rintro ⟨front, inside, heq, hmem⟩
    have hlength := congrArg List.length heq
    simp only [List.length_append, List.length_cons] at hlength
    have hinside : inside <:+ serverFolder :: packsFolder :: inner :=
      ⟨front ++ [serverFolder, packsFolder], by rw [heq]; simp⟩
    have hsuffix : inside <:+ inner :=
      List.suffix_of_suffix_length_le hinside ⟨[serverFolder, packsFolder], rfl⟩ (by omega)
    exact hsuffix.sublist.tail.subset hmem
  · exact fun hmem => ⟨[], inner, rfl, hmem⟩

theorem mem_tail_of_pair_infix {a b : List Char} (h : [a, b] <:+: folders) : b ∈ folders.tail := by
  obtain ⟨front, rest, rfl⟩ := h
  cases front <;> simp

/-- **Which kinds the folders of a file in a pack lead to.** -/
theorem leads_pack {pack below : List (List Char)} (hpack : pack ≠ []) (kind' : FileKind) :
    kind.Leads (outer ++ serverFolder :: packsFolder :: (pack ++ kind'.folderName :: below)) ↔
      kind.Leads outer ∨ kind = kind' ∨ kind.folderName ∈ below ∨ kind.folderName ∈ pack.tail ∨
        [serverFolder, packsFolder] <:+: outer ∧ kind.folderName ∈ pack := by
  have hserver := folderName_ne_serverFolder kind
  have hpacks := folderName_ne_packsFolder kind
  have htail : kind.folderName ∈ (pack ++ kind'.folderName :: below).tail ↔
      kind.folderName ∈ pack.tail ∨ kind = kind' ∨ kind.folderName ∈ below := by
    rw [List.tail_append_of_ne_nil hpack, List.mem_append, List.mem_cons, folderName_inj]
  have hdirect : [serverFolder, kind.folderName] <:+:
      serverFolder :: packsFolder :: (pack ++ kind'.folderName :: below) →
      kind.folderName ∈ (pack ++ kind'.folderName :: below).tail := by
    intro h
    rcases List.infix_cons_iff.mp h with h | h
    · exact absurd (List.cons_prefix_cons.mp (List.cons_prefix_cons.mp h).2).1 hpacks
    · rcases List.infix_cons_iff.mp h with h | h
      · exact absurd (List.cons_prefix_cons.mp h).1 serverFolder_ne_packsFolder
      · exact mem_tail_of_pair_infix h
  rw [leads_iff, leads_iff, pair_infix_append_cons hserver, inPack_append_cons, inPack_packs]
  simp only [List.mem_cons, List.mem_append, hpacks, false_or, folderName_inj]
  rw [htail] at hdirect ⊢
  grind

/-- **Which kinds the folders of a file below the folder of the server lead to.** Below the folder
of the kind there may be another folder of a server. -/
theorem leads_server {below : List (List Char)} (kind' : FileKind) :
    kind.Leads (outer ++ serverFolder :: kind'.folderName :: below) ↔
      kind.Leads outer ∨ kind = kind' ∨ kind.Leads below ∨
        [serverFolder, packsFolder] <:+: outer ∧ kind.folderName ∈ below := by
  have hserver := folderName_ne_serverFolder kind
  have hserver' := folderName_ne_serverFolder kind'
  have hpacks' := folderName_ne_packsFolder kind'
  have hdirect : [serverFolder, kind.folderName] <:+: serverFolder :: kind'.folderName :: below ↔
      kind = kind' ∨ [serverFolder, kind.folderName] <:+: below := by
    rw [List.infix_cons_iff, List.infix_cons_iff, List.cons_prefix_cons, List.cons_prefix_cons,
      List.cons_prefix_cons, folderName_inj]
    simp [hserver'.symm]
  have hinside : kind.InPack (serverFolder :: kind'.folderName :: below) ↔ kind.InPack below := by
    constructor
    · rintro ⟨front, inside, heq, hmem⟩
      rcases front with _ | ⟨first, _ | ⟨second, front⟩⟩
      · simp only [List.nil_append, List.cons.injEq] at heq
        exact absurd heq.2.1 hpacks'
      · simp only [List.cons_append, List.nil_append, List.cons.injEq] at heq
        exact absurd heq.2.1 hserver'
      · simp only [List.cons_append, List.cons.injEq] at heq
        exact ⟨front, inside, heq.2.2, hmem⟩
    · rintro ⟨front, inside, rfl, hmem⟩
      exact ⟨serverFolder :: kind'.folderName :: front, inside, rfl, hmem⟩
  rw [leads_iff, leads_iff, leads_iff, pair_infix_append_cons hserver, inPack_append_cons, hdirect,
    hinside, List.mem_cons, folderName_inj]
  grind

/-- The folders that lead to files of their kind in a pack, but not below the folder of the server:
those below the folder of the kind, those inside of a pack in front of it, and in a folder of packs
the pack itself. -/
def strays (outer pack below : List (List Char)) : List (List Char) :=
  below ++ pack.tail ++ if [serverFolder, packsFolder] <:+: outer then pack else []

theorem leads_pack_iff_leads_server {pack below : List (List Char)} (hpack : pack ≠ [])
    (kind' : FileKind) :
    kind.Leads (outer ++ serverFolder :: packsFolder :: (pack ++ kind'.folderName :: below)) ↔
      kind.Leads (outer ++ serverFolder :: kind'.folderName :: below) ∨
        kind.folderName ∈ strays outer pack below := by
  have hbelow : kind.Leads below → kind.folderName ∈ below := by
    rintro (h | ⟨between, -, h⟩)
    · exact h.subset (List.mem_cons_of_mem _ List.mem_cons_self)
    · exact h.subset (List.mem_append_right _ List.mem_cons_self)
  rw [leads_pack hpack, leads_server, strays, List.mem_append, List.mem_append]
  split
  · grind
  · simp only [List.not_mem_nil, or_false]
    grind

/-! ## The kind that is found -/

/-- The kinds that are tried before a kind. -/
def triedBefore (kind : FileKind) : List FileKind := all.takeWhile (· ≠ kind)

/-- A weaker condition finds the same kind unless a kind that is tried before meets only that
one. -/
theorem find?_all_eq_iff {p q : FileKind → Bool} {S : FileKind → Prop} {found : FileKind}
    (hq : ∀ kind, q kind ↔ p kind ∨ S kind) (hfound : all.find? p = some found) :
    all.find? q = some found ↔ ∀ other ∈ found.triedBefore, ¬ S other := by
  obtain ⟨hp, before, behind, hall, hbefore⟩ := List.find?_eq_some_iff_append.mp hfound
  have hnot : ∀ other ∈ before, ¬ p other := fun other hother => by
    simpa using hbefore other hother
  have hne : ∀ other ∈ before, other ≠ found := by
    rintro other hother rfl
    exact hnot other hother hp
  have htried : found.triedBefore = before := by
    rw [triedBefore, hall, List.takeWhile_append_of_pos fun other h => decide_eq_true (hne other h),
      List.takeWhile_cons_of_neg (by simp), List.append_nil]
  rw [htried, hall, List.find?_append, List.find?_cons_of_pos ((hq found).mpr (Or.inl hp))]
  cases hfirst : before.find? q with
  | none =>
    refine iff_of_true rfl fun other hother hS => ?_
    exact List.find?_eq_none.mp hfirst other hother ((hq other).mpr (Or.inr hS))
  | some other =>
    have hmem := List.mem_of_find?_eq_some hfirst
    refine iff_of_false (fun heq => hne other hmem (Option.some.inj heq)) fun hnone => ?_
    exact ((hq other).mp (List.find?_some hfirst)).elim (hnot other hmem) (hnone other hmem)

/-! ## Paths -/

/-- The folders and the name of a path, and what stands in front of them. -/
def segments (path : String) : List (List Char) := cutAt '/' (PathMap.normalized path)

theorem normalized_append (s t : String) :
    PathMap.normalized (s ++ t) = PathMap.normalized s ++ PathMap.normalized t := by
  rw [PathMap.normalized, String.toList_append, List.map_append]
  rfl

/-- Whether the globs of a kind match a path. -/
def matchesPath (kind : FileKind) (path : String) : Bool :=
  kind.globs.any fun glob => globMatches glob (PathMap.normalized path)

theorem ofPath?_eq (path : String) :
    ofPath? path = all.find? fun kind => kind.matchesPath path := by
  rw [ofPath?, PathMap.kindOf?, PathMap.standard, List.find?_map, Option.map_map]
  exact congrFun Option.map_id _

theorem matchesPath_iff {path : String} : kind.matchesPath path ↔
    HasExtension (PathMap.normalized path) ∧
      kind.Leads (innerPieces '/' (PathMap.normalized path)) :=
  any_globMatches_iff

/-- The path of a file below the folder of the server, in the folder of a kind. -/
def serverPath (front : String) (kind : FileKind) (rest : String) : String :=
  front ++ "/MythicMobs/" ++ kind.folder ++ "/" ++ rest

/-- The path of a file in a pack, in the folder of a kind. -/
def packPath (front pack : String) (kind : FileKind) (rest : String) : String :=
  front ++ "/MythicMobs/Packs/" ++ pack ++ "/" ++ kind.folder ++ "/" ++ rest

theorem normalized_folder (kind : FileKind) : PathMap.normalized kind.folder = kind.folderName := by
  cases kind <;> decide

theorem normalized_serverPath (front : String) (kind : FileKind) (rest : String) :
    PathMap.normalized (serverPath front kind rest) =
      PathMap.normalized front ++ '/' :: (serverFolder ++ '/' :: (kind.folderName ++
        '/' :: PathMap.normalized rest)) := by
  have hfolder : PathMap.normalized "/MythicMobs/" = '/' :: (serverFolder ++ ['/']) := by decide
  have hslash : PathMap.normalized "/" = ['/'] := by decide
  simp only [serverPath, normalized_append, hfolder, hslash, normalized_folder, List.append_assoc,
    List.cons_append, List.nil_append]

theorem normalized_packPath (front pack : String) (kind : FileKind) (rest : String) :
    PathMap.normalized (packPath front pack kind rest) =
      PathMap.normalized front ++ '/' :: (serverFolder ++ '/' :: (packsFolder ++ '/' ::
        (PathMap.normalized pack ++
          '/' :: (kind.folderName ++ '/' :: PathMap.normalized rest)))) := by
  have hfolder : PathMap.normalized "/MythicMobs/Packs/" =
      '/' :: (serverFolder ++ '/' :: (packsFolder ++ ['/'])) := by decide
  have hslash : PathMap.normalized "/" = ['/'] := by decide
  simp only [packPath, normalized_append, hfolder, hslash, normalized_folder, List.append_assoc,
    List.cons_append, List.nil_append]

theorem hasExtension_append_cons {front rest : List Char} :
    HasExtension (front ++ '/' :: rest) ↔ HasExtension rest :=
  exists_congr fun _ => and_congr_right fun he =>
    suffix_append_cons_iff (slash_not_mem_extension he) _

theorem innerPieces_server (kind : FileKind) (front rest : List Char) :
    innerPieces '/' (front ++ '/' :: (serverFolder ++ '/' :: (kind.folderName ++ '/' :: rest))) =
      (cutAt '/' front).tail ++ serverFolder :: kind.folderName :: (cutAt '/' rest).dropLast := by
  rw [innerPieces_append_cons, cutAt_append (by decide),
    cutAt_append (slash_not_mem_folderName kind),
    List.dropLast_cons_of_ne_nil (List.cons_ne_nil _ _),
    List.dropLast_cons_of_ne_nil (cutAt_ne_nil _ _)]

theorem innerPieces_pack (kind : FileKind) (front pack rest : List Char) :
    innerPieces '/' (front ++ '/' :: (serverFolder ++ '/' :: (packsFolder ++ '/' ::
        (pack ++ '/' :: (kind.folderName ++ '/' :: rest))))) =
      (cutAt '/' front).tail ++ serverFolder :: packsFolder :: (cutAt '/' pack ++
        kind.folderName :: (cutAt '/' rest).dropLast) := by
  rw [innerPieces_append_cons, cutAt_append (by decide), cutAt_append (by decide),
    cutAt_append_cons, cutAt_append (slash_not_mem_folderName kind),
    List.dropLast_cons_of_ne_nil (List.cons_ne_nil _ _),
    List.dropLast_cons_of_ne_nil (List.append_ne_nil_of_left_ne_nil (cutAt_ne_nil _ _) _),
    List.dropLast_append_of_ne_nil (List.cons_ne_nil _ _),
    List.dropLast_cons_of_ne_nil (cutAt_ne_nil _ _)]

/-- The folders of a file in a pack that lead to files of their kind there only. -/
def strayFolders (front pack rest : String) : List (List Char) :=
  strays (segments front).tail (segments pack) (segments rest).dropLast

variable {front pack rest : String} {kind' : FileKind}

theorem matchesPath_serverPath : kind'.matchesPath (serverPath front kind rest) ↔
    HasExtension (PathMap.normalized rest) ∧
      kind'.Leads ((segments front).tail ++ serverFolder :: kind.folderName ::
        (segments rest).dropLast) := by
  rw [matchesPath_iff, normalized_serverPath, innerPieces_server]
  simp only [hasExtension_append_cons]
  rfl

theorem matchesPath_packPath : kind'.matchesPath (packPath front pack kind rest) ↔
    kind'.matchesPath (serverPath front kind rest) ∨
      HasExtension (PathMap.normalized rest) ∧ kind'.folderName ∈ strayFolders front pack rest := by
  have hpack : segments pack ≠ [] := cutAt_ne_nil _ _
  rw [matchesPath_serverPath, ← and_or_left, strayFolders, ← leads_pack_iff_leads_server hpack,
    matchesPath_iff, normalized_packPath, innerPieces_pack]
  simp only [hasExtension_append_cons]
  rfl

theorem isSome_ofPath?_iff {path : String} :
    (ofPath? path).isSome ↔ ∃ kind : FileKind, kind.matchesPath path := by
  rw [ofPath?_eq, List.find?_isSome]
  exact exists_congr fun kind => and_iff_right (by cases kind <;> decide)

theorem isSome_ofPath?_serverPath :
    (ofPath? (serverPath front kind rest)).isSome ↔ HasExtension (PathMap.normalized rest) := by
  rw [isSome_ofPath?_iff]
  constructor
  · rintro ⟨kind', h⟩
    exact (matchesPath_serverPath.mp h).1
  · exact fun h =>
      ⟨kind, matchesPath_serverPath.mpr ⟨h, (leads_server kind).mpr (Or.inr (Or.inl rfl))⟩⟩

theorem isSome_ofPath?_packPath :
    (ofPath? (packPath front pack kind rest)).isSome ↔ HasExtension (PathMap.normalized rest) := by
  rw [isSome_ofPath?_iff]
  simp only [matchesPath_packPath, exists_or]
  rw [← isSome_ofPath?_iff, isSome_ofPath?_serverPath]
  exact or_iff_left_of_imp fun ⟨_, h, _⟩ => h

/-- **When a file in a pack is of the same kind as below the folder of the server.** The one has a
kind just if the other has, and the kinds are the same unless a stray folder is that of a kind that
is tried before. -/
theorem ofPath?_packPath_eq_iff (front pack : String) (kind : FileKind) (rest : String) :
    ((ofPath? (packPath front pack kind rest)).isSome ↔
        (ofPath? (serverPath front kind rest)).isSome) ∧
      (ofPath? (packPath front pack kind rest) = ofPath? (serverPath front kind rest) ↔
        ∀ found ∈ ofPath? (serverPath front kind rest), ∀ other ∈ found.triedBefore,
          other.folderName ∉ strayFolders front pack rest) := by
  have hsome : (ofPath? (packPath front pack kind rest)).isSome ↔
      (ofPath? (serverPath front kind rest)).isSome :=
    isSome_ofPath?_packPath.trans isSome_ofPath?_serverPath.symm
  refine ⟨hsome, ?_⟩
  cases hserver : ofPath? (serverPath front kind rest) with
  | none =>
    rw [hserver] at hsome
    exact iff_of_true (Option.not_isSome_iff_eq_none.mp fun h => nomatch hsome.mp h) nofun
  | some found =>
    have hend : HasExtension (PathMap.normalized rest) :=
      isSome_ofPath?_serverPath.mp (Option.isSome_iff_exists.mpr ⟨found, hserver⟩)
    have hstray (other : FileKind) : other.matchesPath (packPath front pack kind rest) ↔
        other.matchesPath (serverPath front kind rest) ∨
          other.folderName ∈ strayFolders front pack rest := by
      rw [matchesPath_packPath, and_iff_right hend]
    rw [ofPath?_eq] at hserver ⊢
    rw [find?_all_eq_iff hstray hserver]
    simp

/-- A folder of skills among the mobs of a pack is one of skills, but not below the folder of the
server. -/
theorem ofPath?_skills_among_mobs :
    ofPath? (serverPath "/srv/plugins" .mob "Skills/a.yml") = some .mob ∧
      ofPath? (packPath "/srv/plugins" "dungeon" .mob "Skills/a.yml") = some .skill := by
  decide +kernel

end FileKind

end PackLint
