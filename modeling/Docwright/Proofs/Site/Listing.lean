import Docwright.Proofs.Files.Ground
import Docwright.Site.Navigation

/-!
# Listing a tree without links

Where there are no links, a listing needs no disk: it is read off the members (`listMembers_eq`).
Every member adds its own part, so setting a member to something that adds the same part leaves the
listing as it is (`listingOf_setMember`). That is why files without the suffix
of pages, such as the sidebars themselves, may come and go.
-/

namespace Docwright.Site

open Files

/-- The page that a file of the given name holds. -/
def pageOf (name : String) (bytes : List UInt8) : PageFile :=
  (pageFile ⟨false, [name]⟩ bytes).2

/-- The pages that a member adds to the listing of its folder. -/
def pagesOf : String × Entry → List PageFile
  | (name, .file bytes) => if suffixOf name == ".md" then [pageOf name bytes] else []
  | _ => []

/-- The pages among the members of a folder. -/
def pagesIn (members : List (String × Entry)) : List PageFile :=
  members.flatMap pagesOf

mutual

/-- The listings that a member adds to the listing of its folder. -/
def foldersOf (name : String) : Entry → List Listing
  | .folder members => [.mk name (pagesIn members) (foldersIn members)]
  | _ => []

/-- The listings of the folders among the members of a folder. -/
def foldersIn : List (String × Entry) → List Listing
  | [] => []
  | (name, e) :: rest => foldersOf name e ++ foldersIn rest

end

/-- The listing of a tree without links. -/
def listingOf (name : String) : Entry → Listing
  | .folder members => .mk name (pagesIn members) (foldersIn members)
  | _ => .mk name [] []

theorem foldersIn_eq_flatMap (members : List (String × Entry)) :
    foldersIn members = members.flatMap fun m ↦ foldersOf m.1 m.2 := by
  induction members with
  | nil => rw [foldersIn, List.flatMap_nil]
  | cons m rest ih => rw [foldersIn, ih, List.flatMap_cons]

theorem pagesIn_append (a b : List (String × Entry)) :
    pagesIn (a ++ b) = pagesIn a ++ pagesIn b :=
  List.flatMap_append

theorem foldersIn_append (a b : List (String × Entry)) :
    foldersIn (a ++ b) = foldersIn a ++ foldersIn b := by
  rw [foldersIn_eq_flatMap, foldersIn_eq_flatMap, foldersIn_eq_flatMap, List.flatMap_append]

/-- The listing of folders that are given by a function of their names. -/
theorem listing_map_folder (names : List String) (M : String → List (String × Entry)) :
    pagesIn (names.map fun n ↦ (n, .folder (M n))) = [] ∧
      foldersIn (names.map fun n ↦ (n, .folder (M n)))
        = names.map fun n ↦ .mk n (pagesIn (M n)) (foldersIn (M n)) := by
  induction names with
  | nil => exact ⟨rfl, by rw [List.map_nil, foldersIn, List.map_nil]⟩
  | cons name rest ih =>
    refine ⟨?_, ?_⟩
    · rw [List.map_cons, pagesIn, List.flatMap_cons, ← pagesIn, ih.1]
      rfl
    · rw [List.map_cons, List.map_cons, foldersIn, ih.2, foldersOf]
      rfl

/-- What a page says does not depend on how its path is shown. -/
theorem pageFile_snd (shown : Path) (name : String) (bytes : List UInt8) :
    (pageFile (shown.child name) bytes).2 = pageOf name bytes := by
  have hname : (shown.child name).name = name := by simp [Path.child, Path.name]
  have hsingle : (⟨false, [name]⟩ : Path).name = name := rfl
  rw [pageOf, pageFile, pageFile, hname, hsingle]
  cases Text.Utf8.decode? bytes <;> rfl

theorem component_of_mem_listFile (shown : Path) (bytes : List UInt8) :
    ∀ r ∈ (listFile shown bytes).log, r.component = "navigation" := by
  have hpage : ∀ r ∈ (pageFile shown bytes).1, r.component = "navigation" := by
    rw [pageFile]
    cases Text.Utf8.decode? bytes with
    | error fault => simp
    | ok cs => simp
  rw [listFile]
  split
  · exact hpage
  · simp

theorem listFile_files (shown : Path) (name : String) (bytes : List UInt8) :
    (listFile (shown.child name) bytes).files = pagesOf (name, .file bytes) ∧
      (listFile (shown.child name) bytes).folders = [] := by
  have hname : (shown.child name).name = name := by simp [Path.child, Path.name]
  rw [listFile, hname, pagesOf]
  split
  · exact ⟨congrArg (fun f ↦ [f]) (pageFile_snd shown name bytes), rfl⟩
  · exact ⟨rfl, rfl⟩

/-- **Without links the disk has no say in a listing.** -/
theorem listMembers_eq (disk : Disk) (budget : Nat) (shown : Path) :
    ∀ members : List (String × Entry), (∀ m ∈ members, m.2.Plain) →
      (listMembers disk budget shown members).files = pagesIn members ∧
        (listMembers disk budget shown members).folders = foldersIn members ∧
        ∀ r ∈ (listMembers disk budget shown members).log, r.component = "navigation"
  | [], _ => by
    rw [listMembers]
    exact ⟨rfl, rfl, by simp⟩
  | (name, .file bytes) :: rest, h => by
    obtain ⟨hfiles, hfolders, hlog⟩ :=
      listMembers_eq disk budget shown rest (List.forall_mem_cons.1 h).2
    obtain ⟨hpage, hnone⟩ := listFile_files shown name bytes
    rw [listMembers, Listed.append, hpage, hnone, hfiles, hfolders]
    exact ⟨rfl, rfl, List.forall_mem_append.2 ⟨component_of_mem_listFile _ _, hlog⟩⟩
  | (name, .folder inner) :: rest, h => by
    obtain ⟨hmember, hrest⟩ := List.forall_mem_cons.1 h
    have hinner : ∀ m ∈ inner, m.2.Plain := by
      cases hmember with
      | folder _ _ hinner => exact hinner
    obtain ⟨hbelow, hfolders, hlog⟩ := listMembers_eq disk budget (shown.child name) inner hinner
    obtain ⟨hpages, hlistings, hlater⟩ := listMembers_eq disk budget shown rest hrest
    rw [listMembers]
    simp only [Listed.append, hbelow, hfolders, hpages, hlistings]
    exact ⟨rfl, by rw [foldersIn, foldersOf], List.forall_mem_append.2 ⟨hlog, hlater⟩⟩
  | (name, .link target) :: rest, h => by cases (List.forall_mem_cons.1 h).1
termination_by members => sizeOf members

/-- **The listing of a tree that the disk carries is read off the tree.** -/
theorem readListing_eq {d : Disk} {g : Ground} {site : Entry} (h : d.Carries g site) :
    ∃ log, readListing d g.path = (log, .ok (listingOf g.path.name site)) ∧
      ∀ r ∈ log, r.component = "navigation" := by
  obtain ⟨ms, rfl⟩ := Entry.isFolder_iff.1 h.folder
  have hplain : ∀ m ∈ ms, m.2.Plain := by
    cases h.plain with
    | folder _ _ hinner => exact hinner
  obtain ⟨hpages, hfolders, hlog⟩ := listMembers_eq d Disk.linkLimit g.path ms hplain
  refine ⟨_, ?_, hlog⟩
  rw [readListing, h.members rfl]
  simp only [hpages, hfolders]
  rfl

/-- The folders of a listing are the members that are folders. -/
theorem map_name_foldersIn (members : List (String × Entry)) :
    (foldersIn members).map Listing.name
      = (members.filter fun m ↦ m.2.isFolder).map Prod.fst := by
  induction members with
  | nil => rw [foldersIn]; rfl
  | cons m rest ih =>
    obtain ⟨name, e⟩ := m
    rw [foldersIn, List.map_append, ih]
    cases e with
    | file bytes => simp [foldersOf, Entry.isFolder]
    | link target => simp [foldersOf, Entry.isFolder]
    | folder inner => simp [foldersOf, Entry.isFolder, Listing.name]

theorem nodup_foldersIn {members : List (String × Entry)} (h : (Entry.folder members).Plain) :
    ((foldersIn members).map Listing.name).Nodup := by
  cases h with
  | folder distinct _ _ =>
    rw [map_name_foldersIn]
    exact distinct.sublist (List.filter_sublist.map Prod.fst)

/-- A folder that is listed is there, and is not the parent. -/
theorem folderAt_of_mem_foldersIn {members : List (String × Entry)}
    (h : (Entry.folder members).Plain) {l : Listing} (hl : l ∈ foldersIn members) :
    l.name ≠ ".." ∧ (Entry.folder members).folderAt [l.name] = true := by
  have hname := List.mem_map_of_mem (f := Listing.name) hl
  rw [map_name_foldersIn] at hname
  obtain ⟨⟨name, e⟩, hmem, heq⟩ := List.mem_map.1 hname
  obtain ⟨hmem, hfolder⟩ := List.mem_filter.1 hmem
  obtain ⟨ms, rfl⟩ := Entry.isFolder_iff.1 hfolder
  cases h with
  | folder distinct names _ =>
    rw [← heq]
    refine ⟨fun hdots ↦ names (hdots ▸ List.mem_map_of_mem hmem), ?_⟩
    rw [Entry.folderAt_iff]
    exact ⟨ms, by simp [lookup_of_mem distinct hmem]⟩

/-! ### Members that add nothing -/

theorem flatMap_setMember {β : Type} (f : String × Entry → List β)
    {members : List (String × Entry)} {name : String} {e : Entry}
    (h : f (name, e) = ((members.lookup name).map fun old ↦ f (name, old)).getD []) :
    (setMember members name e).flatMap f = members.flatMap f := by
  induction members with
  | nil => simpa [setMember] using h
  | cons m rest ih =>
    obtain ⟨n, d⟩ := m
    by_cases hn : n = name
    · subst hn
      rw [List.lookup_cons_self, Option.map_some, Option.getD_some] at h
      rw [setMember, if_pos (by simp), List.flatMap_cons, List.flatMap_cons, h]
    · rw [List.lookup_cons, show (name == n) = false by simpa using Ne.symm hn] at h
      rw [setMember, if_neg (by simpa using hn), List.flatMap_cons, List.flatMap_cons, ih h]

/-- A member that adds what the old one added leaves the listing as it is. -/
theorem listingOf_setMember {members : List (String × Entry)} {first : String} {e : Entry}
    (hpages : pagesOf (first, e)
      = ((members.lookup first).map fun old ↦ pagesOf (first, old)).getD [])
    (hfolders : foldersOf first e = ((members.lookup first).map (foldersOf first)).getD [])
    (name : String) :
    listingOf name (.folder (setMember members first e)) = listingOf name (.folder members) := by
  rw [listingOf, listingOf, pagesIn, pagesIn, flatMap_setMember pagesOf hpages,
    foldersIn_eq_flatMap, foldersIn_eq_flatMap,
    flatMap_setMember (fun m ↦ foldersOf m.1 m.2) hfolders]

theorem foldersOf_of_isFolder {e : Entry} (h : e.isFolder = true) (name : String) :
    foldersOf name e = [listingOf name e] ∧ pagesOf (name, e) = [] := by
  obtain ⟨ms, rfl⟩ := Entry.isFolder_iff.1 h
  exact ⟨by rw [foldersOf, listingOf], rfl⟩

/-- **A file that is no page leaves the listing as it is**, in whatever folder it stands. -/
theorem listingOf_put {site : Entry} {ns : List String} (hne : ns ≠ [])
    (hsuffix : ∀ name ∈ ns.getLast?, suffixOf name ≠ ".md") (hplain : site.Plain)
    (hparent : site.folderAt ns.dropLast = true) (hfolder : site.folderAt ns = false)
    (bytes : List UInt8) (name : String) :
    listingOf name (site.put ns (.file bytes)) = listingOf name site := by
  induction ns generalizing site name with
  | nil => exact absurd rfl hne
  | cons first rest ih =>
    cases rest with
    | nil =>
      obtain ⟨ms, hms⟩ := Entry.folderAt_iff.1 hparent
      obtain rfl : site = .folder ms := by simpa using hms
      have hnone : pagesOf (first, .file bytes) = [] := by
        rw [pagesOf, if_neg (by simpa using hsuffix first rfl)]
      rw [Entry.put_folder_cons, Entry.put_nil]
      cases hold : ms.lookup first with
      | none => exact listingOf_setMember (by rw [hnone, hold]; rfl) (by rw [hold]; rfl) name
      | some old =>
        have hget : (Entry.folder ms).get? [first] = some old := by simp [hold]
        -- what is replaced is a file with the same name, hence no page either
        have hfile : ∃ b, old = .file b := by
          cases hplain.get? hget with
          | file b => exact ⟨b, rfl⟩
          | folder =>
            rw [Entry.folderAt_iff.2 ⟨_, hget⟩] at hfolder
            cases hfolder
        obtain ⟨b, rfl⟩ := hfile
        refine listingOf_setMember ?_ (by rw [hold]; rfl) name
        rw [hnone, hold, Option.map_some, Option.getD_some, pagesOf,
          if_neg (by simpa using hsuffix first rfl)]
    | cons next more =>
      obtain ⟨inner, hinner⟩ := Entry.folderAt_iff.1 hparent
      rw [List.dropLast_cons_cons] at hinner
      obtain ⟨ms, sub, rfl, hsub, hbelow⟩ := Entry.exists_of_get?_cons hinner
      have hget : (Entry.folder ms).get? [first] = some sub := by simp [hsub]
      have hparent' : sub.folderAt (next :: more).dropLast = true :=
        Entry.folderAt_iff.2 ⟨inner, hbelow⟩
      have hfolder' : sub.folderAt (next :: more) = false := by
        simpa [Entry.folderAt, hsub] using hfolder
      have hisFolder : sub.isFolder = true := by
        cases more with
        | nil => exact Entry.isFolder_iff.2 ⟨inner, by simpa using hbelow⟩
        | cons last more =>
          obtain ⟨ms', -, rfl, -⟩ := Entry.exists_of_get?_cons hbelow
          rfl
      -- the member adds one listing before and after, and by induction it is the same one
      have hsame := ih (by simp) (by simpa using hsuffix) (hplain.get? hget) hparent' hfolder' first
      have hisFolder' : (sub.put (next :: more) (.file bytes)).isFolder = true :=
        Entry.isFolder_put hisFolder (List.cons_ne_nil _ _)
      obtain ⟨hnew, hnewPages⟩ := foldersOf_of_isFolder hisFolder' first
      obtain ⟨hold, holdPages⟩ := foldersOf_of_isFolder hisFolder first
      rw [Entry.put_folder_cons, hsub, Option.getD_some]
      refine listingOf_setMember ?_ ?_ name
      · rw [hnewPages, hsub, Option.map_some, Option.getD_some, holdPages]
      · rw [hnew, hsub, Option.map_some, Option.getD_some, hold, hsame]

end Docwright.Site
