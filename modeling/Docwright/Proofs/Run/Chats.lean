import Docwright.Proofs.Generation.Outcome
import Docwright.Proofs.Job.Ledger
import Docwright.Run

/-!
# Generating and writing only chat

Neither generating a document nor writing the site touches the status, the progress or the step of a
job: whatever the service and the disk do, the ledger is given records and lines and nothing else
(`chats_generate`, `chats_materialize`).
-/

namespace Docwright

open Ledger (Chats)

variable {job : Option String}

/-! ### Generating -/

namespace Generation

open Service

variable {s : GenerationSettings} {service : ServiceBehaviour} {u : Page.PageUnit}

theorem chats_pass (d : Desk) : Chats job d.ledger d.pass.ledger := by
  have hrecord : Chats job d.ledger (d.ledger.record (gateLog (d.gate.wait d.now).1)) :=
    (Chats.refl d.ledger).record _
  simp only [Desk.pass]
  split
  · exact hrecord
  · exact hrecord

/-- The attempts at a question chat. -/
theorem within_chats (service : ServiceBehaviour) (p : Policy Float) (job : Option String)
    (u : Page.PageUnit) (q : Question) :
    (steps service p job u q).Within fun d d' ↦ Chats job d.ledger d'.ledger where
  refl d := .refl d.ledger
  trans := Chats.trans
  pass := chats_pass
  call d := .refl d.ledger
  giveUp _ _ d := (Chats.refl d.ledger).record _
  announce _ _ _ d := ((Chats.refl d.ledger).record _).note _
  sleep _ d := .refl d.ledger

theorem chats_announceTier (tier : Prompt.Tier) (prompt : Prompt) (d : Desk) :
    Chats job d.ledger (announceTier job u tier prompt d).ledger := by
  simp only [announceTier]
  split
  · exact ((Chats.refl d.ledger).note _).note _
  · exact (Chats.refl d.ledger).note _

theorem chats_judge (tier : Prompt.Tier) (answer : Except (Failure Float) String) (d : Desk) :
    Chats job d.ledger (judge s job u tier answer d).2.ledger := by
  have hsaid (log : Log) (message : String) :
      Chats job d.ledger ((d.record log).note job message).ledger :=
    ((Chats.refl d.ledger).record log).note message
  cases answer with
  | ok text =>
    cases hreview : Page.review (s.checks u) text with
    | nil =>
      simp only [judge, hreview]
      exact .refl d.ledger
    | cons issue issues =>
      simp only [judge, hreview]
      exact hsaid _ _
  | error failure =>
    cases failure with
    | crashed crash => exact .refl d.ledger
    | _ => exact hsaid _ _

theorem chats_askTier (s : GenerationSettings) (service : ServiceBehaviour) (job : Option String)
    (u : Page.PageUnit) (tier : Prompt.Tier) (d : Desk) :
    Chats job d.ledger (askTier s service job u tier d).2.ledger := by
  rw [askTier]
  split
  · exact .refl d.ledger
  · rename_i prompt _
    have hretry := (within_chats service s.policy job u (questionOf prompt)).retry (p := s.policy)
      (announceTier job u tier prompt d)
    exact ((chats_announceTier tier prompt d).trans hretry).trans (chats_judge tier _ _)

theorem chats_accept (position : Int) (origin : Page.Origin) (text : String) (d : Desk) :
    Chats job d.ledger (accept s job u position origin text d).2.ledger := by
  have hstore : Chats job d.ledger (d.store (keyOf u s.cachePrefixChars) text).ledger := by
    simp only [Desk.store]
    split
    · exact (Chats.refl d.ledger).tick
    · exact .refl d.ledger
  exact hstore.note _

theorem chats_fallBack (position : Int) (reason : String) (d : Desk) :
    Chats job d.ledger (fallBack job u position reason d).2.ledger :=
  ((Chats.refl d.ledger).record _).note _

theorem chats_generateAnew (position : Int) (d : Desk) :
    Chats job d.ledger (generateAnew s service job position u d).2.ledger := by
  have hfull := chats_askTier s service job u .full d
  cases hfirst : (askTier s service job u .full d).1 with
  | fault fault =>
    rw [generateAnew_of_fault hfirst]
    exact hfull
  | accepted text =>
    rw [generateAnew_of_accepted hfirst]
    exact hfull.trans (chats_accept position .service text _)
  | unusable reason =>
    have hsimplified := hfull.trans (chats_askTier s service job u .simplified _)
    cases hsecond :
        (askTier s service job u .simplified (askTier s service job u .full d).2).1 with
    | fault fault =>
      rw [generateAnew_of_unusable_fault hfirst rfl hsecond]
      exact hsimplified
    | accepted text =>
      rw [generateAnew_of_unusable_accepted hfirst rfl hsecond]
      exact hsimplified.trans (chats_accept position .simplified text _)
    | unusable reason =>
      rw [generateAnew_of_unusable_unusable hfirst rfl hsecond]
      exact hsimplified.trans (chats_fallBack position reason _)

/-- **Generating a document only chats**, whatever the service does. -/
theorem chats_generate (s : GenerationSettings) (service : ServiceBehaviour) (job : Option String)
    (position : Int) (u : Page.PageUnit) (d : Desk) :
    Chats job d.ledger (generate s service job position u d).2.ledger := by
  rw [generate]
  split
  · exact ((Chats.refl d.ledger).record _).note _
  · exact chats_generateAnew position d

end Generation

/-! ### Writing -/

namespace Site

theorem chats_writeOrReport (job : Option String) (w : Workshop) (p : Files.Path) (text : String) :
    Chats job w.ledger (writeOrReport w p text).ledger := by
  rw [writeOrReport]
  split
  · exact .refl w.ledger
  · exact (Chats.refl w.ledger).record _

theorem chats_add (root : Files.Path) (job : Option String) (s : Shelf) (d : Page.Document) :
    Chats job s.workshop.ledger (s.add root job d).workshop.ledger := by
  simp only [Shelf.add]
  split
  · exact ((Chats.refl s.workshop.ledger).record _).note _
  · exact (Chats.refl s.workshop.ledger).note _

theorem chats_ensureIndexes (job : Option String) (root : Files.Path) (w : Workshop)
    (categories : List (String × String)) :
    Chats job w.ledger (ensureIndexes root w categories).2.ledger := by
  induction categories generalizing w with
  | nil => exact .refl w.ledger
  | cons category rest ih =>
    rw [ensureIndexes]
    split
    · rename_i w' hindex
      have hone : Chats job w.ledger w'.ledger := by
        rw [ensureIndex] at hindex
        split at hindex
        · cases hindex
          exact .refl w.ledger
        · cases hindex
          exact chats_writeOrReport job w _ _
        · cases hindex
      exact hone.trans (ih w')
    · exact .refl w.ledger

theorem chats_writeLandings (root : Files.Path) (title : String) (s : Shelf) :
    Chats job s.workshop.ledger (writeLandings root title s).2.ledger := by
  have hindexes := chats_ensureIndexes job root s.workshop s.titles
  rw [writeLandings]
  split
  · rename_i heq
    rwa [heq] at hindexes
  · rename_i heq
    rw [heq] at hindexes
    exact hindexes.trans (chats_writeOrReport job _ _ _)

theorem chats_writeSidebars (root : Files.Path) (style title : String) (w : Workshop) :
    Chats job w.ledger (writeSidebars root style title w).2.ledger := by
  have hread : Chats job w.ledger (w.ledger.record (readListing w.disk root).1) :=
    (Chats.refl w.ledger).record _
  simp only [writeSidebars]
  split
  · exact hread
  · split
    · exact hread
    · exact (hread.trans (chats_writeOrReport job
        { w with ledger := w.ledger.record (readListing w.disk root).1 } _ _)).trans
        (Chats.foldl Workshop.ledger (fun w _ ↦ chats_writeOrReport job w _ _) _ _)

/-- **Writing the site only chats**, whatever the disk does. -/
theorem chats_materialize (style : String) (documents : List Page.Document) (root : Files.Path)
    (job : Option String) (title : String) (w : Workshop) :
    Chats job w.ledger (materialize style documents root job title w).2.ledger := by
  rw [materialize]
  split
  · exact .refl w.ledger
  · rename_i disk _
    have hpages := Chats.foldl (fun s : Shelf ↦ s.workshop.ledger) (chats_add root job) documents
      { workshop := { w with disk } }
    have hlandings := hpages.trans (chats_writeLandings root title _)
    simp only
    split
    · rename_i heq
      rwa [heq] at hlandings
    · rename_i heq
      rw [heq] at hlandings
      exact hlandings.trans (chats_writeSidebars root style title _)

end Site

end Docwright
