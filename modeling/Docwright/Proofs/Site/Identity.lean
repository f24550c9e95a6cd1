import Docwright.Proofs.Site.Isolation

/-!
# Ids are settled

A text on its way to a page is made a slug more than once: as the id of a unit, as the id that its
page asks for, and once more in the front matter. Only the first time does something.

* `ids_settled`: every slug is its own slug, and so is every id that is derived from one, by a word
  or a number behind it or as that of an index page. The front matter of a page therefore gives the
  id by which the file is named, in the text that is written and in the file that is found after a
  run.

Of the tables behind the case maps this rests on one fact alone, `isSmall_of_mem_lower`:
lower-casing gives characters that it leaves alone wherever they stand.
-/

namespace Docwright.Site

open Files Page

/-- The id that the front matter of a text gives. -/
def statedId (cs : List Char) : Option String :=
  (FrontMatter.split cs).1.lookup "id"

theorem slugOf_slugOf (s : String) : slugOf (slugOf s) = slugOf s :=
  slugOf_eq_self (isSlug_slugOf s)

/-- The id of a unit is the slug of some text. -/
theorem slugOf_pageId (u : PageUnit) : slugOf u.pageId = u.pageId := by
  rw [PageUnit.pageId]
  split
  · exact slugOf_eq_self (by
      rw [Text.onChars, String.toList_ofList]
      exact isSlug_slug _)
  · exact slugOf_slugOf _

theorem slugOf_freeId (id : String) (taken : List String) :
    slugOf (freeId (fileId id) taken) = freeId (fileId id) taken :=
  slugOf_eq_self (isSlug_freeId id taken).1

theorem slugOf_indexId {slug : String} (h : IsSlug slug.toList) (hne : slug.toList ≠ []) :
    slugOf (indexId slug) = indexId slug :=
  slugOf_eq_self (isSlug_indexId h hne).1

/-- The text of a page gives the id that the page has. -/
theorem statedId_pageText {pageId : String} (h : IsSlug pageId.toList) (d : Document) :
    statedId (pageText pageId d).toList = some pageId := by
  rw [statedId, split_pageText h, pageFields]
  rfl

theorem name_path (root : Path) (p : Written) : (p.path root).name = pageFileName p.pageId := by
  rw [Written.path, Path.child, Path.name, List.getLast?_concat, Option.getD_some]

/-- **The file of a page that a run has written gives the id by which it is named.** -/
theorem exists_statedId_of_mem_writtenPages {w : Workshop} {root : Path} (h : Ready w.disk root)
    (style title : String) {documents : List Document} {job : Option String} {p : Written}
    (hp : p ∈ writtenPages root job documents w) :
    ∃ cs, (materialize style documents root job title w).2.disk.readText (p.path root) = .ok cs ∧
      statedId cs = some (stemOf (p.path root).name) := by
  have hnamed : p.Named := by
    rw [writtenPages_eq_filter h] at hp
    exact named_of_mem_placements (List.mem_filter.1 hp).1
  refine ⟨(pageText p.pageId p.document).toList, ?_, ?_⟩
  · exact Disk.readText_of_read (return_not_mem_pageText p.pageId p.document)
      (read_writtenPages h style title p hp)
  · rw [statedId_pageText hnamed.pageId, name_path, stemOf_pageFileName hnamed.pageId_ne_nil]

/-- **A slug is made of word characters and single inner dashes and is its own slug, and so are all
ids that are derived from slugs**: those of units, those of pages with a word or a number behind
them, and those of index pages. So every page gives the id by which its file is named: the text that
is written for it does, and, where no links stand at the destination, the file that is found after
the run. -/
theorem ids_settled :
    (∀ s, IsSlug (slugOf s).toList ∧ slugOf (slugOf s) = slugOf s) ∧
      (∀ u : PageUnit, slugOf u.pageId = u.pageId) ∧
      (∀ id taken, slugOf (freeId (fileId id) taken) = freeId (fileId id) taken) ∧
      (∀ s, slugOf s ≠ "" → slugOf (indexId (slugOf s)) = indexId (slugOf s)) ∧
      (∀ (d : Document) taken, statedId (pageText (freeId (fileId d.id) taken) d).toList
        = some (stemOf (pageFileName (freeId (fileId d.id) taken)))) ∧
      ∀ (w : Workshop) root, Ready w.disk root → ∀ style documents job title,
        ∀ p ∈ writtenPages root job documents w, ∃ cs,
          (materialize style documents root job title w).2.disk.readText (p.path root) = .ok cs ∧
            statedId cs = some (stemOf (p.path root).name) := by
  refine ⟨fun s ↦ ⟨isSlug_slugOf s, slugOf_slugOf s⟩, slugOf_pageId, slugOf_freeId, fun s hne ↦ ?_,
    fun d taken ↦ ?_, fun w root hready style documents job title p hp ↦ ?_⟩
  · exact slugOf_indexId (isSlug_slugOf s) (by simpa using hne)
  · obtain ⟨hslug, hne, -⟩ := isSlug_freeId d.id taken
    rw [statedId_pageText hslug, stemOf_pageFileName hne]
  · exact exists_statedId_of_mem_writtenPages hready style title hp

/-- A capital I with a dot becomes two characters, of which the second is none of a slug, and the
second of the twins is named and identified by its number. -/
theorem ids_settled_locked :
    let root : Path := ⟨false, ["site"]⟩
    Ready locked.disk root ∧ slugOf "İndex" = "i-ndex" ∧
      slugOf (indexId (slugOf "İndex")) = indexId (slugOf "İndex") ∧
      (writtenPages root none twins locked).map Written.pageId = ["routes-2"] ∧
      ∀ p ∈ writtenPages root none twins locked, ∃ cs,
        (materialize "json" twins root none "Docs" locked).2.disk.readText (p.path root) = .ok cs ∧
          statedId cs = some (stemOf (p.path root).name) := by
  have hslug : slugOf "İndex" = "i-ndex" := by decide +kernel
  obtain ⟨-, -, -, hindex, -, hpages⟩ := ids_settled
  exact ⟨vacant_locked.ready, hslug, hindex "İndex" (by rw [hslug]; decide), writtenPages_locked,
    hpages locked _ vacant_locked.ready "json" twins none "Docs"⟩

end Docwright.Site
