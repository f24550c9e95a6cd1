import Docwright.Proofs.Run.Chats
import Docwright.Proofs.Site.Isolation

/-!
# Runs in which nothing fails

What is said about such runs elsewhere is said of destinations without links, where the run can be
followed on the tree. Two things need no tree and hold of any destination: the run comes to its end
(`exists_nav_of_smooth`), and every document has been written under the name that it has among all
documents (`writtenPages_eq_placements`).

A page is either put on the shelf or told of in the log, and the log is never taken back; so where
nothing was told of in the end, nothing was told of on the way either.
-/

namespace Docwright.Site

open Files Page

/-- The shelf holds the pages of all documents so far, unless the log tells of a failure. -/
structure Shelf.Complete (old : Log) (s : Shelf) (before : List Written) : Prop where
  taken : ∀ slug, (s.taken.lookup slug).getD [] = idsUnder slug before
  written : ∃ more, s.workshop.ledger.log = old ++ more ∧
    ((∀ r ∈ more, r.component ≠ "materializer") → s.written = before)

/-- **One more document is put on the shelf, or the log tells of it.** -/
theorem Shelf.Complete.add {old : Log} {s : Shelf} {before : List Written}
    (h : Shelf.Complete old s before) (root : Path) (job : Option String) (d : Document) :
    Shelf.Complete old (Shelf.add root job s d) (place before d) := by
  have hname : nameAfter before d
      = ⟨d, categorySlug d.category,
        freeId (fileId d.id) ((s.taken.lookup (categorySlug d.category)).getD [])⟩ := by
    rw [nameAfter, h.taken]
  obtain ⟨more, hlog, hwritten⟩ := h.written
  rw [Shelf.add_eq root job s d hname, place]
  generalize nameAfter before d = p
  have htaken := lookup_taken h.taken p
  split
  · rename_i e disk _
    obtain ⟨said, hsaid, -⟩ := exists_log_note (s.workshop.ledger.record
      (writeFailureLog ((root.child p.slug).child (pageFileName p.pageId)) e)) job
      s!"Failed to write {d.title}: {writeFailure
        ((root.child p.slug).child (pageFileName p.pageId)) e}"
    refine ⟨htaken, more ++ (writeFailureLog ((root.child p.slug).child (pageFileName p.pageId)) e
      ++ said), ?_, fun hquiet ↦ ?_⟩
    · rw [hsaid, Ledger.record, hlog]
      simp only [List.append_assoc]
    · exact absurd rfl (hquiet _ (List.mem_append_right _
        (List.mem_append_left _ List.mem_cons_self)))
  · obtain ⟨said, hsaid, -⟩ := exists_log_note s.workshop.ledger job
      s!"Wrote {p.slug}/{pageFileName p.pageId}"
    refine ⟨htaken, more ++ said, ?_, fun hquiet ↦ ?_⟩
    · rw [hsaid, hlog, List.append_assoc]
    · rw [hwritten fun r hr ↦ hquiet r (List.mem_append_left said hr)]

/-- All documents together. -/
theorem Shelf.complete_foldl (w : Workshop) (root : Path) (job : Option String)
    (documents : List Document) :
    Shelf.Complete w.ledger.log (documents.foldl (Shelf.add root job) { workshop := w })
      (placements documents) := by
  induction documents using List.reverseRecOn with
  | nil => exact ⟨fun _ ↦ rfl, [], (List.append_nil _).symm, fun _ ↦ rfl⟩
  | append_singleton documents d ih =>
    rw [List.foldl_append, placements_append]
    exact ih.add root job d

variable {w : Workshop} {root : Path} {documents : List Document} {job : Option String}
  {style title : String}

/-- The log of a run goes on from where its pages leave it. -/
theorem materialize_keeps_log {made : Disk}
    (hfolders : w.disk.makeFolders root = (.ok (), made)) :
    let shelf := documents.foldl (Shelf.add root job) { workshop := { w with disk := made } }
    shelf.workshop.ledger.log <+: (materialize style documents root job title w).2.ledger.log := by
  intro shelf
  rw [materialize, hfolders]
  have hlandings : Ledger.Chats job shelf.workshop.ledger
      (writeLandings root title shelf).2.ledger := chats_writeLandings root title shelf
  simp only
  split
  · rename_i heq
    rw [heq] at hlandings
    exact hlandings.keeps_log
  · rename_i heq
    rw [heq] at hlandings
    exact (hlandings.trans (chats_writeSidebars root style title _)).keeps_log

/-- **Every document is written** in a run in which nothing fails. -/
theorem writtenPages_eq_placements
    (h : Smooth w (materialize style documents root job title w)) :
    writtenPages root job documents w = placements documents := by
  obtain ⟨hok, hquiet⟩ := h
  cases hfolders : w.disk.makeFolders root with
  | mk result made =>
    cases result with
    | error e =>
      refine absurd ?_ (hok e)
      rw [materialize, hfolders]
    | ok =>
      obtain ⟨-, more, hlog, hwritten⟩ :=
        Shelf.complete_foldl { w with disk := made } root job documents
      obtain ⟨later, hlater⟩ := materialize_keeps_log hfolders
      rw [writtenPages, hfolders]
      refine hwritten fun r hr ↦ hquiet r ?_
      rw [addedLog, ← hlater, hlog, List.append_assoc]
      simp only [List.drop_left]
      exact List.mem_append_left later hr

/-- **A run in which nothing fails comes to its end.** -/
theorem exists_nav_of_smooth (hstyle : (SidebarStyle.ofName? style).isSome = true)
    (h : Smooth w (materialize style documents root job title w)) :
    ∃ nav, (materialize style documents root job title w).1 = .ok nav := by
  obtain ⟨form, hform⟩ := Option.isSome_iff_exists.1 hstyle
  have hok := h.1
  rw [materialize] at hok ⊢
  split
  · rename_i e _ hfolders
    rw [hfolders] at hok
    exact absurd rfl (hok e)
  · rename_i made hfolders
    rw [hfolders] at hok
    simp only at hok ⊢
    split
    · rename_i e _ hlandings
      rw [hlandings] at hok
      exact absurd rfl (hok e)
    · rename_i w' hlandings
      rw [hlandings] at hok
      simp only [writeSidebars, hform] at hok ⊢
      split
      · rename_i e hlisting
        rw [hlisting] at hok
        exact absurd rfl (hok e)
      · exact ⟨_, rfl⟩

/-- What it is for a run to have written a page for every document, and after which the disk is the
given one: the pages are the documents in order, no two of them share a path, and where the
destination has no links each is found under its path. -/
structure Delivers (root : Path) (job : Option String) (documents : List Document) (w : Workshop)
    (after : Disk) : Prop where
  written : writtenPages root job documents w = placements documents
  complete : (placements documents).map Written.document = documents
  apart : ((placements documents).map (Written.path root)).Nodup
  found : Ready w.disk root →
    ∀ page ∈ placements documents, after.read (page.path root) = .ok page.bytes

/-- **A run in which nothing fails delivers every document.** -/
theorem delivers_of_smooth (h : Smooth w (materialize style documents root job title w)) :
    Delivers root job documents w (materialize style documents root job title w).2.disk where
  written := writtenPages_eq_placements h
  complete := map_document_placements documents
  apart := nodup_paths_placements root documents
  found := fun hready ↦ by
    rw [← writtenPages_eq_placements h]
    exact read_writtenPages hready style title

end Docwright.Site
