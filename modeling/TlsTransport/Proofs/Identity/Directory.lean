import TlsTransport.IdentityStore
import Mathlib

/-! # The identities of a directory

Which identities a directory holds is settled by the files directly in it: the name of a file says
whether it is one, and its bytes are the identity. The store lists each of them once, by name,
whatever else the directory holds and in whatever order its entries are given.

* `EndsIn`, `Holds`: which names are those of identities, and of which.
* `ofEntry?_eq_some_iff`: a directory entry is taken for what its name says it is.
* `eq_of_ascending`: a list in the order of names is determined by what is in it.
* `FileTree.mem_entriesAt`: the entries of a directory are what the tree has directly under it.
* `directory_lists`: what the store of a directory lists.
-/

namespace TlsTransport
namespace IdentityStore

/-! ## Names of identities -/

/-- A letter of either case and the same one in lower case, or any byte and itself. -/
def SameLetter (b c : UInt8) : Prop := b = c ∨ 0x61 ≤ c ∧ c ≤ 0x7a ∧ b + 0x20 = c

/-- What follows the last dot of a name is a word, in any case, and something stands before the
dot. -/
def EndsIn (name : FileName) (word : String) : Prop :=
  ∃ stem ext, name = stem ++ 0x2e :: ext ∧ stem ≠ [] ∧ 0x2e ∉ ext ∧
    List.Forall₂ SameLetter ext (Bytes.ofString word)

/-- The identity that a file of some name and bytes is. -/
inductive Holds (name : FileName) (bytes : Bytes) : StoredIdentity → Prop where
  | text (named : EndsIn name "pem") : Holds name bytes (.text bytes)
  | container (named : EndsIn name "p12" ∨ EndsIn name "pfx") : Holds name bytes (.container bytes)

theorem lower_eq_iff {b c : UInt8} (hc : c < 0x41 ∨ 0x5a < c) : lower b = c ↔ SameLetter b c := by
  simp only [lower, SameLetter]
  grind

theorem map_lower_eq_iff {word ext : Bytes} (hword : ∀ c ∈ word, c < 0x41 ∨ 0x5a < c) :
    ext.map lower = word ↔ List.Forall₂ SameLetter ext word := by
  induction ext generalizing word with
  | nil => cases word <;> simp
  | cons b ext ih =>
    cases word with
    | nil => simp
    | cons c word =>
      have htail := ih fun d hd => hword d (List.mem_cons_of_mem c hd)
      rw [List.map_cons, List.cons.injEq, List.forall₂_cons, htail,
        lower_eq_iff (hword c List.mem_cons_self)]

theorem takeWhile_dotless {bytes : Bytes} (h : 0x2e ∉ bytes) (rest : Bytes) :
    (bytes ++ rest).takeWhile (· != 0x2e) = bytes ++ rest.takeWhile (· != 0x2e) :=
  List.takeWhile_append_of_pos fun b hb => by simpa using fun hdot : b = 0x2e => h (hdot ▸ hb)

theorem takeWhile_last_dot {stem ext : Bytes} (hext : 0x2e ∉ ext) :
    ((stem ++ 0x2e :: ext).reverse.takeWhile (· != 0x2e)).reverse = ext := by
  rw [List.reverse_append, List.reverse_cons, List.append_assoc,
    takeWhile_dotless (by simpa using hext)]
  simp

theorem exists_last_dot {name : FileName} (h : 0x2e ∈ name) :
    ∃ stem ext, name = stem ++ 0x2e :: ext ∧ 0x2e ∉ ext := by
  obtain ⟨ext, stem, hname, hext⟩ := List.eq_append_cons_of_mem (List.mem_reverse.2 h)
  refine ⟨stem.reverse, ext.reverse, ?_, by simpa using hext⟩
  rw [← List.reverse_reverse name, hname]
  simp

/-- The extension of a name is all that follows its last dot. -/
theorem extension?_eq_some_iff {name : FileName} {ext : Bytes} :
    extension? name = some ext ↔ ∃ stem, name = stem ++ 0x2e :: ext ∧ stem ≠ [] ∧ 0x2e ∉ ext := by
  constructor
  · intro h
    obtain ⟨hlong, hext⟩ := Option.ite_none_right_eq_some.1 h
    have hdot : 0x2e ∈ name := by
      by_contra hfree
      have hreverse : 0x2e ∉ name.reverse := by simpa using hfree
      have hwhole := takeWhile_dotless hreverse []
      rw [List.append_nil, List.takeWhile_nil, List.append_nil] at hwhole
      rw [hwhole, List.reverse_reverse] at hlong
      omega
    obtain ⟨stem, ext', rfl, hfree⟩ := exists_last_dot hdot
    rw [takeWhile_last_dot hfree] at hlong hext
    obtain rfl := Option.some.inj hext
    refine ⟨stem, rfl, ?_, hfree⟩
    rintro rfl
    simp at hlong
  · rintro ⟨stem, rfl, hstem, hfree⟩
    have hpos := List.length_pos_iff.2 hstem
    rw [extension?, takeWhile_last_dot hfree, if_pos (by simp; omega)]

theorem endsIn_iff {name : FileName} {word : String}
    (hword : ∀ c ∈ Bytes.ofString word, c < 0x41 ∨ 0x5a < c) :
    EndsIn name word ↔ (extension? name).map (·.map lower) = some (Bytes.ofString word) := by
  simp only [EndsIn, Option.map_eq_some_iff, extension?_eq_some_iff, map_lower_eq_iff hword]
  constructor
  · rintro ⟨stem, ext, hname, hstem, hfree, hspelt⟩
    exact ⟨ext, ⟨stem, hname, hstem, hfree⟩, hspelt⟩
  · rintro ⟨ext, ⟨stem, hname, hstem, hfree⟩, hspelt⟩
    exact ⟨stem, ext, hname, hstem, hfree, hspelt⟩

theorem holds_text_iff {name : FileName} {bytes bytes' : Bytes} :
    Holds name bytes (.text bytes') ↔ bytes' = bytes ∧ EndsIn name "pem" :=
  ⟨fun h => by cases h with | text named => exact ⟨rfl, named⟩, fun ⟨h, named⟩ => h ▸ .text named⟩

theorem holds_container_iff {name : FileName} {bytes bytes' : Bytes} :
    Holds name bytes (.container bytes') ↔
      bytes' = bytes ∧ (EndsIn name "p12" ∨ EndsIn name "pfx") :=
  ⟨fun h => by cases h with | container named => exact ⟨rfl, named⟩,
    fun ⟨h, named⟩ => h ▸ .container named⟩

/-- An entry is taken for what its name says it is, if it is a file. -/
theorem ofEntry?_eq_some_iff {e : DirectoryEntry} {i : StoredIdentity} :
    ofEntry? e = some i ↔ ∃ bytes, e.content = some bytes ∧ Holds e.name bytes i := by
  have hpem : EndsIn e.name "pem" ↔ _ := endsIn_iff (by decide +kernel)
  have hp12 : EndsIn e.name "p12" ↔ _ := endsIn_iff (by decide +kernel)
  have hpfx : EndsIn e.name "pfx" ↔ _ := endsIn_iff (by decide +kernel)
  have hother : Bytes.ofString "p12" ≠ Bytes.ofString "pem" := by decide +kernel
  have hother' : Bytes.ofString "pfx" ≠ Bytes.ofString "pem" := by decide +kernel
  unfold ofEntry?
  cases hcontent : e.content with
  | none => simp
  | some bytes =>
    cases hext : (extension? e.name).map (·.map lower) with
    | none =>
      rw [hext] at hpem hp12 hpfx
      cases i <;> simp [holds_text_iff, holds_container_iff, hpem, hp12, hpfx]
    | some ext =>
      rw [hext] at hpem hp12 hpfx
      cases i <;> simp [holds_text_iff, holds_container_iff, hpem, hp12, hpfx] <;> grind

/-! ## The identities among entries -/

variable {entries entries' : List DirectoryEntry}

/-- The identities among some entries with their names, in the order of these. -/
def named (entries : List DirectoryEntry) : List (FileName × StoredIdentity) :=
  (entries.mergeSort fun a b => decide (a.name ≤ b.name)).filterMap fun e =>
    ofEntry? e |>.map (e.name, ·)

theorem map_snd_named (entries : List DirectoryEntry) :
    (named entries).map Prod.snd = ofEntries entries := by
  simp [named, ofEntries, List.map_filterMap, Function.comp_def]

theorem mem_named {name : FileName} {i : StoredIdentity} :
    (name, i) ∈ named entries ↔
      ∃ bytes, ⟨name, some bytes⟩ ∈ entries ∧ Holds name bytes i := by
  rw [named, List.mem_filterMap]
  constructor
  · rintro ⟨⟨name', content⟩, hmem, hname⟩
    obtain ⟨i', hi, hpair⟩ := Option.map_eq_some_iff.1 hname
    obtain ⟨rfl, rfl⟩ := Prod.mk.inj hpair
    obtain ⟨bytes, rfl, hholds⟩ := ofEntry?_eq_some_iff.1 hi
    exact ⟨bytes, (List.mergeSort_perm entries _).mem_iff.1 hmem, hholds⟩
  · rintro ⟨bytes, hmem, hholds⟩
    refine ⟨_, (List.mergeSort_perm entries _).mem_iff.2 hmem, ?_⟩
    rw [ofEntry?_eq_some_iff.2 ⟨bytes, rfl, hholds⟩]
    rfl

/-- Entries of different names come in strict order. -/
theorem sorted_strictly (h : (entries.map (·.name)).Nodup) :
    (entries.mergeSort fun a b => decide (a.name ≤ b.name)).Pairwise fun a b =>
      a.name < b.name := by
  have hsorted : (entries.mergeSort fun a b => decide (a.name ≤ b.name)).Pairwise fun a b =>
      decide (a.name ≤ b.name) = true := List.pairwise_mergeSort
    (fun a b c hab hbc => by
      simpa using List.le_trans (of_decide_eq_true hab) (of_decide_eq_true hbc))
    (fun a b => by simpa using List.le_total a.name b.name) entries
  have hnodup := ((List.mergeSort_perm entries fun a b => decide (a.name ≤ b.name)).map
    (·.name)).nodup_iff.2 h
  refine (hsorted.and (List.pairwise_map.1 hnodup)).imp fun {a b} hab => ?_
  exact Std.lt_of_le_of_ne (of_decide_eq_true hab.1) hab.2

theorem named_ascending (h : (entries.map (·.name)).Nodup) :
    (named entries).Pairwise fun a b => a.1 < b.1 := by
  refine (sorted_strictly h).filterMap _ fun a a' haa' b hb b' hb' => ?_
  obtain ⟨i, -, rfl⟩ := Option.map_eq_some_iff.1 hb
  obtain ⟨i', -, rfl⟩ := Option.map_eq_some_iff.1 hb'
  exact haa'

/-- What is in a list in the order of names is enough to know it. -/
theorem eq_of_ascending {listed listed' : List (FileName × StoredIdentity)}
    (h : listed.Pairwise fun a b => a.1 < b.1) (h' : listed'.Pairwise fun a b => a.1 < b.1)
    (hsame : ∀ name i, (name, i) ∈ listed' ↔ (name, i) ∈ listed) : listed' = listed := by
  have hirrefl : ∀ {a b : FileName × StoredIdentity}, a.1 < b.1 → a ≠ b := by
    rintro a _ hlt rfl
    exact List.lt_irrefl _ hlt
  have hperm : listed'.Perm listed :=
    (List.perm_ext_iff_of_nodup (h'.imp hirrefl) (h.imp hirrefl)).2 fun a => hsame a.1 a.2
  have hasymm : ∀ a b, a ∈ listed' → b ∈ listed → a.1 < b.1 → b.1 < a.1 → a = b :=
    fun a b _ _ hab hba => absurd (List.lt_trans hab hba) (List.lt_irrefl a.1)
  exact hperm.eq_of_pairwise hasymm h' h

/-- Only the identities among the entries count, and not the order of the entries. -/
theorem ofEntries_eq (h : (entries.map (·.name)).Nodup) (h' : (entries'.map (·.name)).Nodup)
    (hsame : ∀ name i, (name, i) ∈ named entries' ↔ (name, i) ∈ named entries) :
    ofEntries entries' = ofEntries entries := by
  rw [← map_snd_named, eq_of_ascending (named_ascending h) (named_ascending h') hsame,
    map_snd_named]

end IdentityStore

/-! ## The entries of a directory -/

theorem nodup_eraseDups {α : Type} [BEq α] [LawfulBEq α] (l : List α) : l.eraseDups.Nodup := by
  match l with
  | [] => simp
  | a :: rest =>
    rw [List.eraseDups_cons, List.nodup_cons]
    exact ⟨by simp [List.mem_eraseDups], nodup_eraseDups _⟩
termination_by l.length
decreasing_by exact Nat.lt_succ_of_le (List.length_filter_le _ _)

namespace FileTree

variable {files : FileTree} {place : List FileName} {root : String} {name : FileName}

theorem isSome_at?_iff : (files.at? (place ++ [name])).isSome ↔
    ∃ e ∈ files.entries, place ++ [name] <+: e.1 := by
  rw [at?]
  split
  · rename_i e he
    have hplace := List.find?_some he
    have hmem := List.mem_of_find?_eq_some he
    simp only [beq_iff_eq] at hplace
    simpa using ⟨e.1, ⟨e.2, hmem⟩, hplace ▸ List.prefix_rfl⟩
  · simp

theorem mem_namesUnder : name ∈ files.namesUnder place ↔ (files.at? (place ++ [name])).isSome := by
  rw [isSome_at?_iff, namesUnder, List.mem_eraseDups, List.mem_filterMap]
  refine exists_congr fun e => and_congr_right fun _ => ?_
  constructor
  · intro h
    obtain ⟨hplace, hname⟩ := Option.ite_none_right_eq_some.1 h
    obtain ⟨rest, hrest⟩ := List.isPrefixOf_iff_prefix.1 hplace
    rw [← hrest, List.drop_left] at hname
    obtain ⟨tail, rfl⟩ := List.head?_eq_some_iff.1 hname
    exact ⟨tail, by rw [← hrest, List.append_assoc, List.singleton_append]⟩
  · rintro ⟨tail, htail⟩
    have hplace : place <+: e.1 := ⟨name :: tail, by simpa using htail⟩
    rw [if_pos (List.isPrefixOf_iff_prefix.2 hplace), ← htail, List.append_assoc, List.drop_left]
    rfl

/-- What a directory holds, in the order of the tree. -/
def entriesAt (files : FileTree) (place : List FileName) : List DirectoryEntry :=
  (files.namesUnder place).map fun name => ⟨name, (files.at? (place ++ [name])).join⟩

theorem list_eq (hroot : files.locate root = .ok (place, none)) :
    files.list root = .ok (files.entriesAt place) := by
  rw [list, hroot]
  rfl

theorem entriesAt_names : ((files.entriesAt place).map (·.name)).Nodup := by
  rw [entriesAt, List.map_map, Function.comp_def, List.map_id']
  exact nodup_eraseDups _

theorem mem_entriesAt {e : DirectoryEntry} :
    e ∈ files.entriesAt place ↔ files.at? (place ++ [e.name]) = some e.content := by
  rw [entriesAt, List.mem_map]
  constructor
  · rintro ⟨name, hname, rfl⟩
    obtain ⟨content, hcontent⟩ := Option.isSome_iff_exists.1 (mem_namesUnder.1 hname)
    rw [hcontent, Option.join_some]
  · intro h
    exact ⟨e.name, mem_namesUnder.2 (by rw [h]; rfl), by rw [h]; rfl⟩

end FileTree

namespace IdentityStore

/-! ## The store of a directory -/

variable {files : FileTree} {root : String} {place : List FileName}

/-- A file directly in a directory is an identity. -/
def Kept (files : FileTree) (place : List FileName) (name : FileName) (i : StoredIdentity) : Prop :=
  ∃ bytes, files.at? (place ++ [name]) = some (some bytes) ∧ Holds name bytes i

theorem identities_directory (hroot : files.locate root = .ok (place, none)) :
    (directory files root).identities = .ok (ofEntries (files.entriesAt place)) := by
  have hlist : ((files.list root).mapError SetupError.io) = .ok (files.entriesAt place) := by
    rw [FileTree.list_eq hroot, Except.mapError]
  exact congrArg (Except.map ofEntries) hlist

theorem mem_named_entriesAt {name : FileName} {i : StoredIdentity} :
    (name, i) ∈ named (files.entriesAt place) ↔ Kept files place name i := by
  simp only [mem_named, FileTree.mem_entriesAt, Kept]

/-- The store of a directory lists the files directly in it that have the name of an identity, each
once and by name, and what else is in the directory makes no difference, nor does the order in which
its entries come. So a search in it comes to the same. -/
theorem directory_lists (hroot : files.locate root = .ok (place, none)) :
    (∃ listed : List (FileName × StoredIdentity),
      (directory files root).identities = .ok (listed.map Prod.snd) ∧
      (listed.Pairwise fun a b => a.1 < b.1) ∧
      ∀ name i, (name, i) ∈ listed ↔ Kept files place name i) ∧
    (∃ entries, files.list root = .ok entries ∧ ∀ entries', entries'.Perm entries →
      (directory files root).identities = .ok (ofEntries entries') ∧
      ∀ format fingerprint, findIdentity format (directory files root) fingerprint =
        findIdentityIn format fingerprint (ofEntries entries')) ∧
    ∀ files' root' place', files'.locate root' = .ok (place', none) →
      (∀ name i, Kept files' place' name i ↔ Kept files place name i) →
      (directory files' root').identities = (directory files root).identities ∧
      ∀ format fingerprint, findIdentity format (directory files' root') fingerprint =
        findIdentity format (directory files root) fingerprint := by
  have hnames : ((files.entriesAt place).map (·.name)).Nodup := FileTree.entriesAt_names
  have hlists := identities_directory hroot
  refine ⟨⟨named (files.entriesAt place), ?_, ?_, fun name i => mem_named_entriesAt⟩,
    ⟨_, FileTree.list_eq hroot, fun entries' hperm => ?_⟩,
    fun files' root' place' hroot' hsame => ?_⟩
  · rw [map_snd_named, hlists]
  · exact named_ascending hnames
  · have hsame := ofEntries_eq hnames ((hperm.map _).nodup_iff.2 hnames)
      fun name i => by simp only [mem_named, hperm.mem_iff]
    exact ⟨hlists.trans (by rw [hsame]), fun _ _ => by simp only [findIdentity, hlists, hsame]⟩
  · have hlists' : (directory files' root').identities = (directory files root).identities := by
      rw [identities_directory hroot', hlists, ofEntries_eq hnames FileTree.entriesAt_names
        fun name i => by rw [mem_named_entriesAt, mem_named_entriesAt, hsame]]
    exact ⟨hlists', fun format fingerprint => by simp only [findIdentity, hlists']⟩

/-! ## Two directories of the same identities -/

/-- Something directly in one directory. -/
def inIds (name : String) (content : Option Bytes) : List FileName × Option Bytes :=
  ([Bytes.ofString "ids", Bytes.ofString name], content)

/-- Two identities among names that are not those of one, and a directory that has such a name. -/
def crowdedTree : FileTree :=
  ⟨[inIds "b.P12" (some [7]), inIds "sub.pem" none, inIds ".pem" (some [9]),
    inIds "a.b.Pem" (some [1]), inIds "a.pem." (some [3])]⟩

/-- The two identities alone, the other way round. -/
def bareTree : FileTree := ⟨[inIds "a.b.Pem" (some [1]), inIds "b.P12" (some [7])]⟩

theorem trees_list_same :
    crowdedTree.locate "ids" = .ok ([Bytes.ofString "ids"], none) ∧
    bareTree.locate "ids" = .ok ([Bytes.ofString "ids"], none) ∧
    (directory crowdedTree "ids").identities = .ok [.text [1], .container [7]] ∧
    (directory bareTree "ids").identities = (directory crowdedTree "ids").identities ∧
    ∀ format fingerprint, findIdentity format (directory bareTree "ids") fingerprint =
      findIdentity format (directory crowdedTree "ids") fingerprint := by
  have hroot : crowdedTree.locate "ids" = .ok ([Bytes.ofString "ids"], none) := by cbv
  have hroot' : bareTree.locate "ids" = .ok ([Bytes.ofString "ids"], none) := by cbv
  have hnamed : named (bareTree.entriesAt [Bytes.ofString "ids"]) =
      named (crowdedTree.entriesAt [Bytes.ofString "ids"]) := by cbv
  obtain ⟨-, ⟨entries, hentries, horder⟩, hsame⟩ := directory_lists hroot
  obtain rfl := Except.ok.inj (hentries.symm.trans (FileTree.list_eq hroot))
  have hlists : ofEntries (crowdedTree.entriesAt [Bytes.ofString "ids"]).reverse =
      [.text [1], .container [7]] := by cbv
  obtain ⟨hbare, hfinds⟩ := hsame bareTree "ids" _ hroot' fun name i => by
    rw [← mem_named_entriesAt, hnamed, mem_named_entriesAt]
  obtain ⟨hreversed, -⟩ := horder _ (List.reverse_perm _)
  exact ⟨hroot, hroot', hlists ▸ hreversed, hbare, hfinds⟩

end IdentityStore
end TlsTransport
