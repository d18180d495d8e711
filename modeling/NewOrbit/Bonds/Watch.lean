import NewOrbit.Bonds.Columns
import NewOrbit.Lib.Stopping

/-!
# `Bonds.Watch` — the importer's watch loop

After the startup scan, `main` takes keys from the watch service and imports the files their events name, until
something is thrown: the `try` is around the loop, not inside. `watchLoop_iff` says what must not happen for an
interrupt to be the only end of it. A file is opened twice, for the field names and for the data, and may have been
written or deleted in between. The server is one that answers every query (`Mongo`): `find` stands outside the
inner `try`, so a lost connection would end the loop too, whatever the event or the file.
-/

namespace NewOrbit.Bonds.Importer

section Programs
variable (decimal128 : BigDecimal → Except JavaException Decimal128) (mongo : Mongo)

/-! ## The loop -/

/-- `updateDatabase` on a file that two reads may find different. -/
def updateDatabaseFrom (header data : CsvFile) (bonds : List Stored) : Import × Option JavaException :=
  match getBondCsvFieldNames header, getBondCsvData data with
  | .ok csvFieldNames, .ok csvData => updateRows decimal128 mongo csvFieldNames csvData (.start bonds)
  | .ok _,             .error e    => (.start bonds, some e)
  | .error e,          _           => (.start bonds, some e)

theorem updateDatabase_eq (file : CsvFile) (bonds : List Stored) :
    updateDatabase decimal128 mongo file bonds = updateDatabaseFrom decimal128 mongo file file bonds := rfl

/-- An event, and what handling it meets: an interrupt of the sleep, and what the two reads of the file find, the
    first as far as its first record. The context is null for `OVERFLOW`, which the service may send whatever was
    registered. -/
structure WatchEvent where
  context          : Option String
  sleepInterrupted : Bool
  header           : CsvFile
  data             : CsvFile

/-- What `watchService.take()` ends with, a key being its pending events. -/
inductive Take where
  | interrupted
  | key (events : List WatchEvent)

/-- Why the loop is left. -/
inductive Leave where
  | interrupted
  | thrown (e : JavaException)
  deriving DecidableEq, Repr

/-- The event names a file that is imported. -/
def WatchEvent.named (event : WatchEvent) : Bool := event.context.any isCsvFile

def WatchEvent.interrupts (event : WatchEvent) : Bool := event.named && event.sleepInterrupted

/-- The body of the inner loop. -/
def handleEvent (event : WatchEvent) (bonds : List Stored) : List Stored × Option Leave :=
  match event.context with
  -- `toString()` of a null context.
  | none          => (bonds, some (.thrown .NullPointerException))
  | some fileName =>
      if isCsvFile fileName then
        if event.sleepInterrupted then (bonds, some .interrupted)
        else
          let (s, exception) := updateDatabaseFrom decimal128 mongo event.header event.data bonds
          (s.collection, exception.map .thrown)
      else (bonds, none)

/-- The body of the outer loop. -/
def handleTake : Take → List Stored → List Stored × Option Leave
  | .interrupted, bonds => (bonds, some .interrupted)
  | .key events,  bonds => Stopping.run (handleEvent decimal128 mongo) events bonds

/-- The loop over what was taken so far. If nothing ends it, it waits for the next key. -/
def watchLoop : List Take → List Stored → List Stored × Option Leave :=
  Stopping.run (handleTake decimal128 mongo)

end Programs

/-! ## What ends the loop -/

/-- What the loop comes to, event by event; `none` is an interrupt of `take`. -/
def Take.steps : Take → List (Option WatchEvent)
  | .interrupted => [none]
  | .key events  => events.map some

/-- The events before the first interrupt. -/
def beforeInterrupt : List (Option WatchEvent) → List WatchEvent
  | []                  => []
  | none :: _           => []
  | some event :: steps => if event.interrupts then [] else event :: beforeInterrupt steps

/-- The events the loop comes to, if only an interrupt ends it. -/
def delivered (takes : List Take) : List WatchEvent := beforeInterrupt (takes.flatMap Take.steps)

section Harmless
variable (decimal128 : BigDecimal → Except JavaException Decimal128)

/-- Both reads find a first record, the first with a character to cut off, and no row found throws. -/
def Readable (header data : CsvFile) : Prop :=
  ∃ first names records firstName headings csvData,
    header = .ok ((first :: names) :: records) ∧ substring1 first = .ok firstName ∧
      data = .ok (headings :: csvData) ∧ ∀ csvLine ∈ csvData, ¬ RowThrows decimal128 csvLine (firstName :: names)

/-- The event has a context, and a file it names can be read. -/
def WatchEvent.Harmless (event : WatchEvent) : Prop :=
  event.context.isSome ∧ (event.named → Readable decimal128 event.header event.data)

variable {decimal128} {mongo : Mongo}

/-- The exception `updateDatabase` ends with, whatever the collection. -/
def readsStop (decimal128 : BigDecimal → Except JavaException Decimal128) (header data : CsvFile) :
    Option JavaException :=
  match getBondCsvFieldNames header, getBondCsvData data with
  | .ok csvFieldNames, .ok csvData => csvData.findSome? (rowStop decimal128 csvFieldNames)
  | .ok _,             .error e    => some e
  | .error e,          _           => some e

theorem updateDatabaseFrom_stop (header data : CsvFile) (bonds : List Stored) :
    (updateDatabaseFrom decimal128 mongo header data bonds).2 = readsStop decimal128 header data := by
  unfold updateDatabaseFrom readsStop
  split
  · exact updateRows_stop ..
  · rfl
  · rfl

theorem readsStop_eq_none_iff {header data : CsvFile} :
    readsStop decimal128 header data = none ↔ Readable decimal128 header data := by
  constructor
  · intro h
    unfold readsStop at h
    split at h
    · next csvFieldNames csvData hnames hdata =>
        obtain ⟨first, names, records, firstName, rfl, hfirst, rfl⟩ := getBondCsvFieldNames_eq_ok.mp hnames
        obtain ⟨headings, rfl⟩ := getBondCsvData_eq_ok.mp hdata
        refine ⟨first, names, records, firstName, headings, csvData, rfl, hfirst, rfl, fun csvLine hline => ?_⟩
        exact rowStop_eq_none_iff.mp (List.findSome?_eq_none_iff.mp h csvLine hline)
    · cases h
    · cases h
  · rintro ⟨first, names, records, firstName, headings, csvData, rfl, hfirst, rfl, hrows⟩
    have hnames := getBondCsvFieldNames_eq_ok.mpr ⟨first, names, records, firstName, rfl, hfirst, rfl⟩
    have hdata : getBondCsvData (.ok (headings :: csvData)) = .ok csvData := rfl
    rw [readsStop, hnames, hdata]
    exact List.findSome?_eq_none_iff.mpr fun csvLine hline => rowStop_eq_none_iff.mpr (hrows csvLine hline)

/-! ## The loop, event by event -/

/-- The body of the loop over the events, an interrupt of `take` being one of them. -/
def handleStep (decimal128 : BigDecimal → Except JavaException Decimal128) (mongo : Mongo) :
    Option WatchEvent → List Stored → List Stored × Option Leave
  | none,       bonds => (bonds, some .interrupted)
  | some event, bonds => handleEvent decimal128 mongo event bonds

theorem watchLoop_eq (takes : List Take) (bonds : List Stored) :
    watchLoop decimal128 mongo takes bonds =
      Stopping.run (handleStep decimal128 mongo) (takes.flatMap Take.steps) bonds := by
  rw [← Stopping.run_flatMap]
  show Stopping.run (handleTake decimal128 mongo) takes bonds = _
  congr 1
  funext take bonds
  cases take with
  | interrupted => rfl
  | key events =>
      show Stopping.run (fun event => handleStep decimal128 mongo (some event)) events bonds =
        Stopping.run (handleStep decimal128 mongo) (events.map some) bonds
      exact (Stopping.run_map some events bonds).symm

/-- What importing the file of an event leaves. -/
def WatchEvent.imported (decimal128 : BigDecimal → Except JavaException Decimal128) (mongo : Mongo)
    (event : WatchEvent) (bonds : List Stored) : List Stored :=
  if event.named then (updateDatabaseFrom decimal128 mongo event.header event.data bonds).1.collection else bonds

theorem handleEvent_of_interrupts {event : WatchEvent} (h : event.interrupts) (bonds : List Stored) :
    handleEvent decimal128 mongo event bonds = (bonds, some .interrupted) := by
  obtain ⟨context, sleepInterrupted, header, data⟩ := event
  cases context with
  | none => cases h
  | some fileName =>
      obtain ⟨hname, hsleep⟩ := Bool.and_eq_true_iff.mp h
      have hname : isCsvFile fileName = true := hname
      have hsleep : sleepInterrupted = true := hsleep
      simp only [handleEvent, hname, hsleep, if_true]

theorem handleEvent_of_not_interrupts (mongo : Mongo) {event : WatchEvent} (h : ¬ event.interrupts)
    (bonds : List Stored) :
    (handleEvent decimal128 mongo event bonds).1 = event.imported decimal128 mongo bonds ∧
      (event.Harmless decimal128 ↔ (handleEvent decimal128 mongo event bonds).2 = none) ∧
      ∀ leave, (handleEvent decimal128 mongo event bonds).2 = some leave → ∃ e, leave = .thrown e := by
  obtain ⟨context, sleepInterrupted, header, data⟩ := event
  cases context with
  | none => exact ⟨rfl, iff_of_false (fun h => nomatch h.1) nofun, fun leave hl => ⟨_, (Option.some.inj hl).symm⟩⟩
  | some fileName =>
      by_cases hname : isCsvFile fileName = true
      · have hsleep : sleepInterrupted = false := by
          cases sleepInterrupted with
          | false => rfl
          | true => exact absurd (Bool.and_eq_true_iff.mpr ⟨hname, rfl⟩) h
        have himported : handleEvent decimal128 mongo ⟨some fileName, sleepInterrupted, header, data⟩ bonds =
            ((updateDatabaseFrom decimal128 mongo header data bonds).1.collection,
              (readsStop decimal128 header data).map .thrown) := by
          simp only [handleEvent, hname, hsleep, if_true, Bool.false_eq_true, if_false, updateDatabaseFrom_stop]
        rw [himported]
        refine ⟨?_, ?_, fun leave hl => ?_⟩
        · exact (if_pos hname).symm
        · rw [Option.map_eq_none_iff, readsStop_eq_none_iff]
          exact ⟨fun h => h.2 hname, fun h => ⟨rfl, fun _ => h⟩⟩
        · obtain ⟨e, -, he⟩ := Option.map_eq_some_iff.mp hl
          exact ⟨e, he.symm⟩
      · have hskipped : handleEvent decimal128 mongo ⟨some fileName, sleepInterrupted, header, data⟩ bonds =
            (bonds, none) := by
          simp only [handleEvent, hname, Bool.false_eq_true, if_false]
        rw [hskipped]
        exact ⟨(if_neg hname).symm, iff_of_true ⟨rfl, fun h => absurd h hname⟩ rfl, nofun⟩

/-- With harmless events the loop imports their files until it is interrupted. -/
theorem run_of_harmless {steps : List (Option WatchEvent)}
    (h : ∀ event ∈ beforeInterrupt steps, event.Harmless decimal128) (bonds : List Stored) :
    (∀ e, (Stopping.run (handleStep decimal128 mongo) steps bonds).2 ≠ some (.thrown e)) ∧
      (Stopping.run (handleStep decimal128 mongo) steps bonds).1 =
        (beforeInterrupt steps).foldl (fun c event => event.imported decimal128 mongo c) bonds := by
  fun_induction beforeInterrupt steps generalizing bonds with
  | case1 => exact ⟨nofun, rfl⟩
  | case2 steps => exact ⟨nofun, rfl⟩
  | case3 event steps hint =>
      have hstep : handleStep decimal128 mongo (some event) bonds = (bonds, some .interrupted) :=
        handleEvent_of_interrupts hint bonds
      rw [Stopping.run_cons_of_some (congrArg Prod.snd hstep), hstep]
      exact ⟨nofun, rfl⟩
  | case4 event steps hint ih =>
      rw [List.forall_mem_cons] at h
      obtain ⟨himported, hharmless, -⟩ := handleEvent_of_not_interrupts mongo hint bonds
      have hnone : (handleStep decimal128 mongo (some event) bonds).2 = none := hharmless.mp h.1
      rw [Stopping.run_cons_of_none hnone, List.foldl_cons, ← himported]
      exact ih h.2 _

/-- An event that is not harmless ends it by an exception. -/
theorem run_throws {steps : List (Option WatchEvent)}
    (h : ∃ event ∈ beforeInterrupt steps, ¬ event.Harmless decimal128) (bonds : List Stored) :
    ∃ e, (Stopping.run (handleStep decimal128 mongo) steps bonds).2 = some (.thrown e) := by
  fun_induction beforeInterrupt steps generalizing bonds with
  | case1 => exact absurd h (by simp)
  | case2 steps => exact absurd h (by simp)
  | case3 event steps hint => exact absurd h (by simp)
  | case4 event steps hint ih =>
      obtain ⟨-, hharmless, hthrown⟩ := handleEvent_of_not_interrupts mongo hint bonds
      cases hleave : (handleStep decimal128 mongo (some event) bonds).2 with
      | some leave =>
          obtain ⟨e, rfl⟩ := hthrown leave hleave
          rw [Stopping.run_cons_of_some hleave]
          exact ⟨e, hleave⟩
      | none =>
          rw [Stopping.run_cons_of_none hleave]
          obtain ⟨event', hevent', hnot⟩ := h
          rcases List.mem_cons.mp hevent' with rfl | hlater
          · exact absurd (hharmless.mpr hleave) hnot
          · exact ih ⟨event', hlater, hnot⟩ _

/-- **What keeps the importer watching.** Whatever is taken, the loop is never left by an exception and imports the
    file of every event that comes before an interrupt, iff each of these events is harmless. -/
theorem watchLoop_iff (decimal128 : BigDecimal → Except JavaException Decimal128) (mongo : Mongo) (takes : List Take)
    (bonds : List Stored) :
    ((∀ e, (watchLoop decimal128 mongo takes bonds).2 ≠ some (.thrown e)) ∧
      (watchLoop decimal128 mongo takes bonds).1 =
        (delivered takes).foldl (fun c event => event.imported decimal128 mongo c) bonds) ↔
      ∀ event ∈ delivered takes, event.Harmless decimal128 := by
  rw [watchLoop_eq]
  constructor
  · rintro ⟨hthrown, -⟩ event hevent
    by_contra hnot
    obtain ⟨e, he⟩ := run_throws ⟨event, hevent, hnot⟩ bonds
    exact hthrown e he
  · exact fun h => run_of_harmless h bonds

/-- A file with one bond, and the event of its creation. -/
def bondCreated : WatchEvent :=
  let file : CsvFile := .ok [["\uFEFFISIN", "currency"], ["XS1", "EUR"]]
  ⟨some "20200708.csv", false, file, file⟩

/-- The service lost count of its events. -/
def overflow : WatchEvent := ⟨none, false, .ok [], .ok []⟩

/-- A file that is emptied or deleted before it is read. -/
def emptied : WatchEvent := ⟨some "20200709.csv", false, .ok [], .ok []⟩
def deleted : WatchEvent := ⟨some "20200709.csv", false, .error .IOException, .error .IOException⟩

example : ([[overflow], [emptied], [deleted], []].map fun events =>
    (watchLoop plainDecimal128 plainMongo [.key events, .key [bondCreated]] []).1.length) = [0, 0, 0, 1] := by
  decide +kernel

theorem not_always_watching :
    ¬ ∀ (decimal128 : BigDecimal → Except JavaException Decimal128) (mongo : Mongo) (takes : List Take)
      (bonds : List Stored),
      (∀ e, (watchLoop decimal128 mongo takes bonds).2 ≠ some (.thrown e)) ∧
        (watchLoop decimal128 mongo takes bonds).1 =
          (delivered takes).foldl (fun c event => event.imported decimal128 mongo c) bonds := by
  intro h
  exact (h plainDecimal128 plainMongo [.key [overflow], .key [bondCreated]] []).1 .NullPointerException rfl

end Harmless

end NewOrbit.Bonds.Importer
