import Assembler.Proofs.Assembly.Event
import Assembler.Proofs.Assembly.Image
import Mathlib.Data.Set.BooleanAlgebra
import Mathlib.Order.CompletePartialOrder
import Mathlib.Order.Interval.Set.Basic

/-!
# The extents of a program

Instructions, constants, reserved storage and placed literals all take their addresses from the
location counter.  As long as no ORIGIN moves the counter, it only counts up, and a line hands out
addresses between the counter before it and the counter after it.  So no two things share an
address, and all of them lie between the start of the program and the counter at its end.

## Main definitions

* `Extent` : consecutive addresses.
* `Assembly.extents` : the addresses of the records and literals of a program.
* `Fills` : extents in order between two values of the location counter.

## Main results

* `Fills.append` : what fills two stretches one after the other fills both together.
* `Scan.Stepped.fills` : the extents of a line fill the stretch by which it moves the counter.
* `extents_disjoint` : the extents of a program without ORIGIN are disjoint.
-/

namespace Assembler

/-! ### Extents -/

/-- Consecutive addresses. -/
structure Extent where
  first : Nat
  size : Nat
  deriving DecidableEq, Repr

namespace Extent

/-- The address behind an extent. -/
def stop (extent : Extent) : Nat :=
  extent.first + extent.size

/-- The addresses of an extent. -/
def addresses (extent : Extent) : Set Nat :=
  Set.Ico extent.first extent.stop

/-- An extent ends before another one begins. -/
def Before (extent other : Extent) : Prop :=
  extent.stop ≤ other.first

variable {extent other : Extent}

private theorem Before.disjoint (h : extent.Before other) :
    Disjoint extent.addresses other.addresses := by
  rw [Set.disjoint_left]
  intro address haddress hother
  exact absurd (lt_of_lt_of_le haddress.2 (h.trans hother.1)) (lt_irrefl address)

private theorem addresses_subset {low high : Nat} (hlow : low ≤ extent.first)
    (hhigh : extent.stop ≤ high) : extent.addresses ⊆ Set.Ico low high :=
  Set.Ico_subset_Ico hlow hhigh

end Extent

/-- The number of addresses that a record takes. -/
def Record.room : Record → Nat
  | directive _ _ => 0
  | declaration .constant _ => 1
  | declaration .storage words => words
  | instruction _ _ _ => 1

/-- Whether a record is that of an ORIGIN. -/
def Record.isOrigin : Record → Bool
  | directive word _ => word == .origin
  | declaration _ _ => false
  | instruction _ _ _ => false

/-- The addresses that a record takes. -/
def Located.extent (record : Located Record) : Extent :=
  ⟨record.address, record.content.room⟩

/-- The address that a placed literal takes. -/
def placeExtent (place : String × Nat) : Extent :=
  ⟨place.2, 1⟩

/-- The addresses that the records and the placed literals of a program take. -/
def Assembly.extents (assembly : Assembly) : List Extent :=
  assembly.records.map Located.extent ++ assembly.context.literals.placements.map placeExtent

/-! ### Filling a stretch of addresses -/

/-- Records and literals with extents in order between two addresses, none of which overlap. -/
structure Fills (low high : Nat) (records places : List Extent) : Prop where
  low_le : low ≤ high
  records_ordered : records.Pairwise Extent.Before
  places_ordered : places.Pairwise Extent.Before
  apart : ∀ record ∈ records, ∀ place ∈ places, record.Before place ∨ place.Before record
  within : ∀ extent ∈ records ++ places, low ≤ extent.first ∧ extent.stop ≤ high

namespace Fills

variable {low middle high : Nat} {records places records' places' : List Extent}

/-- Addresses may be passed over. -/
theorem skip (h : low ≤ high) : Fills low high [] [] :=
  ⟨h, .nil, .nil, by simp, by simp⟩

/-- A single record. -/
theorem record (first size : Nat) : Fills first (first + size) [⟨first, size⟩] [] where
  low_le := Nat.le_add_right first size
  records_ordered := List.pairwise_singleton _ _
  places_ordered := .nil
  apart := by simp
  within := by simp [Extent.stop]

/-- A single literal. -/
theorem place (first : Nat) : Fills first (first + 1) [] [⟨first, 1⟩] where
  low_le := Nat.le_add_right first 1
  records_ordered := .nil
  places_ordered := List.pairwise_singleton _ _
  apart := by simp
  within := by simp [Extent.stop]

/-- What fills two stretches one after the other fills both together. -/
theorem append (h : Fills low middle records places) (h' : Fills middle high records' places') :
    Fills low high (records ++ records') (places ++ places') := by
  -- whatever is in the first stretch ends before whatever is in the second one
  have hbefore : ∀ extent ∈ records ++ places, ∀ other ∈ records' ++ places',
      extent.Before other := by
    intro extent hextent other hother
    exact (h.within extent hextent).2.trans (h'.within other hother).1
  refine ⟨h.low_le.trans h'.low_le, ?_, ?_, ?_, ?_⟩
  · refine List.pairwise_append.mpr ⟨h.records_ordered, h'.records_ordered, ?_⟩
    intro extent hextent other hother
    exact hbefore extent (List.mem_append_left _ hextent) other (List.mem_append_left _ hother)
  · refine List.pairwise_append.mpr ⟨h.places_ordered, h'.places_ordered, ?_⟩
    intro extent hextent other hother
    exact hbefore extent (List.mem_append_right _ hextent) other (List.mem_append_right _ hother)
  · intro extent hextent other hother
    rcases List.mem_append.mp hextent with hextent | hextent <;>
      rcases List.mem_append.mp hother with hother | hother
    · exact h.apart extent hextent other hother
    · exact .inl (hbefore extent (List.mem_append_left _ hextent) other
        (List.mem_append_right _ hother))
    · exact .inr (hbefore other (List.mem_append_right _ hother) extent
        (List.mem_append_left _ hextent))
    · exact h'.apart extent hextent other hother
  · intro extent hextent
    have hmem : extent ∈ records ++ places ∨ extent ∈ records' ++ places' := by
      simp only [List.mem_append] at hextent ⊢
      tauto
    rcases hmem with hfirst | hsecond
    · have hwithin := h.within extent hfirst
      exact ⟨hwithin.1, hwithin.2.trans h'.low_le⟩
    · have hwithin := h'.within extent hsecond
      exact ⟨h.low_le.trans hwithin.1, hwithin.2⟩

/-- Literals that are placed one behind the other fill as many addresses as they are. -/
theorem zipIdx (texts : List String) (first : Nat) :
    Fills first (first + texts.length) [] ((texts.zipIdx first).map placeExtent) := by
  induction texts generalizing first with
  | nil => exact skip (Nat.le_refl _)
  | cons text rest ih =>
    have hlength : first + (text :: rest).length = first + 1 + rest.length := by
      rw [List.length_cons]
      omega
    rw [hlength, List.zipIdx_cons, List.map_cons]
    exact (place first).append (ih (first + 1))

/-- What fills a stretch does not overlap. -/
theorem disjoint (h : Fills low high records places) :
    (records ++ places).Pairwise fun extent other =>
      Disjoint extent.addresses other.addresses := by
  refine List.pairwise_append.mpr
    ⟨h.records_ordered.imp Extent.Before.disjoint, h.places_ordered.imp Extent.Before.disjoint, ?_⟩
  intro record hrecord place hplace
  rcases h.apart record hrecord place hplace with hbefore | hafter
  · exact hbefore.disjoint
  · exact hafter.disjoint.symm

end Fills

namespace Context

/-! ### Executing a line -/

theorem Referred.location_eq {context after : Context} {operand? : Option String}
    {reference : Reference} (h : context.Referred operand? reference after) :
    after.location = context.location := by
  cases h <;> rfl

theorem Referred.start_eq {context after : Context} {operand? : Option String}
    {reference : Reference} (h : context.Referred operand? reference after) :
    after.start = context.start := by
  cases h <;> rfl

theorem Performed.start_eq {bound after : Context} {statement : Statement}
    {result : Except Fault Record} (h : bound.Performed statement after result)
    (horderly : bound.literals.Orderly) : after.start = bound.start := by
  cases h with
  | instruction _ _ _ hrefer => exact hrefer.start_eq
  | placed _ hplacing hplaced =>
    rw [(eq_poolPlaced_of_placing horderly hplacing hplaced).1]
    rfl
  | _ => rfl

theorem Executed.start_eq {context : Context} {source : Except Fault SourceLine}
    {effect : Effect} (h : context.Executed source effect)
    (horderly : context.literals.Orderly) : effect.context.start = context.start := by
  cases h with
  | performed _ hresult =>
    exact (hresult.start_eq (orderly_bindLabel horderly _ _)).trans (bindLabel_start context _ _)
  | _ => rfl

/-- The literals of the open pool fill the stretch that placing it takes. -/
theorem fills_due {context : Context} (h : context.literals.Orderly)
    (hroom : context.location + context.literals.openSize ≤ maxAddress) :
    Fills context.location context.poolPlaced.location [] (context.due.map placeExtent) := by
  have hzip := Fills.zipIdx context.literals.waitingTexts context.location
  rw [h.length_waitingTexts] at hzip
  rwa [due_eq h, if_pos hroom]

/-- The extents of a statement fill the stretch by which it moves the location counter, unless it
is an ORIGIN. -/
theorem Performed.fills {bound after : Context} {statement : Statement}
    {result : Except Fault Record} (h : bound.Performed statement after result)
    (horderly : bound.literals.Orderly) {number : Nat} {warnings : List Fault}
    (horigin : ∀ record ∈ (Trace.ofLine number bound.location warnings (result.map some)).records,
      record.content.isOrigin = false) :
    Fills bound.location after.location
      ((Trace.ofLine number bound.location warnings (result.map some)).records.map Located.extent)
      ((bound.placements (.ok (.statement statement))).map placeExtent) := by
  cases h with
  | refused _ _ hplacing =>
    rw [placements_eq_nil hplacing]
    exact .skip (Nat.le_refl _)
  | full _ hword =>
    rw [placements_eq_nil (Mnemonic.placing?_of_takesWord hword)]
    exact .skip (Nat.le_refl _)
  | spoiled _ hword =>
    rw [placements_eq_nil (Mnemonic.placing?_of_takesWord hword)]
    exact .skip (Nat.le_succ _)
  | instruction hmnemonic _ _ hrefer =>
    rw [placements_eq_nil (by rw [hmnemonic]; rfl), hrefer.location_eq]
    exact .record bound.location 1
  | constant hmnemonic =>
    rw [placements_eq_nil (by rw [hmnemonic]; rfl)]
    exact .record bound.location 1
  | storage hmnemonic =>
    rw [placements_eq_nil (by rw [hmnemonic]; rfl)]
    exact .record bound.location _
  | origin => exact absurd (horigin _ (List.mem_singleton_self _)) (by simp [Record.isOrigin])
  | placed hmnemonic hplacing hplaced =>
    obtain ⟨rfl, hroom⟩ := eq_poolPlaced_of_placing horderly hplacing hplaced
    rw [← hmnemonic] at hplacing
    rw [placements_eq_due hplacing]
    exact (Fills.record bound.location 0).append (fills_due horderly hroom)
  | unplaced hmnemonic hplacing hfault =>
    have hfull := lt_of_placing_eq_error horderly hplacing hfault
    rw [← hmnemonic] at hplacing
    rw [placements_eq_due hplacing, due_eq horderly, if_neg (Nat.not_le.mpr hfull)]
    exact .skip (Nat.le_refl _)

/-- The extents of a source line fill the stretch by which it moves the location counter. -/
theorem Executed.fills {context : Context} {source : Except Fault SourceLine}
    {effect : Effect} (h : context.Executed source effect)
    (horderly : context.literals.Orderly) {number : Nat} {warnings : List Fault}
    (horigin : ∀ record ∈ (Trace.ofLine number context.location warnings effect.result).records,
      record.content.isOrigin = false) :
    Fills context.location effect.context.location
      ((Trace.ofLine number context.location warnings effect.result).records.map Located.extent)
      ((context.placements source).map placeExtent) := by
  cases h with
  | unread => exact .skip (Nat.le_refl _)
  | literal => exact .skip (Nat.le_refl _)
  | @performed statement after result hmnemonic hresult =>
    have hbound := bindLabel_location context statement.label context.location
    rw [← hbound] at horigin
    have hfills := hresult.fills (orderly_bindLabel horderly _ _) horigin
    rw [hbound, placements_bindLabel] at hfills
    exact hfills
  | incomplete _ hmnemonic =>
    rw [placements_eq_nil (by rw [hmnemonic]; rfl)]
    exact .skip (Nat.le_refl _)
  | valueless hmnemonic =>
    rw [placements_eq_nil (by rw [hmnemonic]; rfl)]
    exact .skip (Nat.le_refl _)
  | equated hmnemonic =>
    rw [placements_eq_nil (by rw [hmnemonic]; rfl)]
    exact .record context.location 0

end Context

namespace Scan

variable {scan : Scan} {number : Nat} {line : String} {outcome : Trace × Scan} {trace : Trace}

/-! ### Lines -/

/-- The records and placed literals so far fill the stretch from the start of the program to the
location counter.  Until the program has begun there are none. -/
structure Laid (trace : Trace) (scan : Scan) : Prop where
  fills : Fills scan.context.start scan.context.location (trace.records.map Located.extent)
    (scan.context.literals.placements.map placeExtent)
  opening : scan.phase = .opening →
    trace.records = [] ∧ scan.context.literals.placements = []

private theorem laid_empty : Laid {} ⟨.opening, {}⟩ where
  fills := .skip (Nat.le_refl 0)
  opening _ := ⟨rfl, rfl⟩

/-- An opening START begins the stretch anew. -/
theorem Laid.opened (h : Laid trace scan) (hphase : scan.phase = .opening)
    (label : Option String) (operands : Operands) :
    Laid (trace.append (openWith number label operands scan.context).1)
      (openWith number label operands scan.context).2 := by
  obtain ⟨hrecords, hplacements⟩ := h.opening hphase
  refine ⟨?_, fun hopening => absurd hopening (by simp [openWith])⟩
  simp only [openWith, Context.bindLabel_start, Context.bindLabel_location,
    Context.bindLabel_literals, Trace.append, hrecords, hplacements]
  exact .record (startAddress operands).2 0

/-- A line inside the program fills the next stretch. -/
theorem Laid.proceeded (h : Laid trace scan) (horderly : scan.context.literals.Orderly)
    {warnings : List Fault} {source : Except Fault SourceLine}
    (horigin : ∀ record ∈ (proceed number warnings source scan.context).1.records,
      record.content.isOrigin = false) :
    Laid (trace.append (proceed number warnings source scan.context).1)
      (proceed number warnings source scan.context).2 := by
  have hexecuted := scan.context.executed_execute source
  refine ⟨?_, fun hopening => ?_⟩
  · dsimp only [proceed, Trace.append] at horigin ⊢
    rw [hexecuted.start_eq horderly, hexecuted.placements horderly, List.map_append,
      List.map_append]
    exact h.fills.append (hexecuted.fills horderly horigin)
  · dsimp only [proceed] at hopening
    split at hopening
    · split_ifs at hopening
    · exact absurd hopening (by simp)

private theorem Stepped.laid (hstepped : scan.Stepped number line outcome)
    (horderly : scan.context.literals.Orderly) (h : Laid trace scan)
    (horigin : ∀ record ∈ outcome.1.records, record.content.isOrigin = false) :
    Laid (trace.append outcome.1) outcome.2 := by
  cases hstepped with
  | idle =>
    have hnil : trace.append {} = trace := by simp [Trace.append]
    rwa [hnil]
  | opened _ hphase => exact h.opened hphase _ _
  | proceeded => exact h.proceeded horderly horigin

private theorem laid_run (number : Nat) (lines : List String)
    (horigin : ∀ record ∈ (run number lines ⟨.opening, {}⟩).1.records,
      record.content.isOrigin = false) :
    Laid (run number lines ⟨.opening, {}⟩).1 (run number lines ⟨.opening, {}⟩).2 := by
  have hrun := run_induction number lines {}
    (motive := fun trace next => next.context.literals.Orderly ∧
      ((∀ record ∈ trace.records, record.content.isOrigin = false) → Laid trace next))
    ⟨LiteralTable.orderly_empty, fun _ => laid_empty⟩ ?_
  · exact hrun.2 horigin
  · intro trace next place line ⟨horderly, hlaid⟩
    have hstepped := next.stepped_step place line
    refine ⟨hstepped.orderly horderly, fun hall => ?_⟩
    obtain ⟨hearlier, hlater⟩ := List.forall_mem_append.mp hall
    exact hstepped.laid horderly (hlaid hearlier) hlater

end Scan

/-! ### Whole programs -/

/-- The records and placed literals of a program fill the stretch from its start to the location
counter at its end, unless one of the records is that of an ORIGIN. -/
theorem fills_assemble {text : String}
    (horigin : ∀ record ∈ (assemble text).records, record.content.isOrigin = false) :
    Fills (assemble text).context.start (assemble text).context.location
      ((assemble text).records.map Located.extent)
      ((assemble text).context.literals.placements.map placeExtent) := by
  have horderly := orderly_programScan text
  rw [assemble_records] at horigin ⊢
  have hlaid : Fills (programScan text).context.start (programScan text).context.location _
      ((programScan text).context.literals.placements.map placeExtent) :=
    (Scan.laid_run 1 (programLines text) horigin).fills
  rw [assemble_context, Scan.finish_eq horderly]
  split_ifs with hphase hroom
  · exact hlaid
  · have hclosed := hlaid.append (Context.fills_due horderly hroom)
    rw [List.append_nil, ← List.map_append,
      ← Context.placements_poolPlaced horderly hroom] at hclosed
    exact hclosed
  · exact hlaid

/-- A record that gives a word takes one address. -/
private theorem Context.room_of_wordOf? {context : Context} {record : Located Record}
    {word : Located Word} (h : context.wordOf? record = some word) : record.content.room = 1 := by
  obtain ⟨-, -, hencode⟩ := eq_of_wordOf? h
  cases hcontent : record.content with
  | directive other operand => simp [hcontent, encode] at hencode
  | declaration other value =>
    cases other with
    | constant => rfl
    | storage => simp [hcontent, encode] at hencode
  | instruction opcode register reference => rfl

/-- The extents of a program without ORIGIN are disjoint and lie between its start and the
location counter at its end, and the addresses of its words increase from line to line. -/
theorem extents_disjoint (text : String)
    (horigin : ∀ record ∈ (assemble text).records, record.content.isOrigin = false) :
    ((assemble text).extents.Pairwise fun extent other =>
        Disjoint extent.addresses other.addresses) ∧
      (∀ extent ∈ (assemble text).extents, extent.addresses ⊆
        Set.Ico (assemble text).context.start (assemble text).context.location) ∧
      (assemble text).words.Pairwise fun earlier later =>
        earlier.line < later.line ∧ earlier.address < later.address := by
  have hfills := fills_assemble horigin
  refine ⟨hfills.disjoint, fun extent hextent => ?_, ?_⟩
  · have hwithin := hfills.within extent hextent
    exact Extent.addresses_subset hwithin.1 hwithin.2
  · have hlines := records_assemble_pairwise text
    have hordered := List.pairwise_map.mp hfills.records_ordered
    change ((assemble text).context.image (assemble text).records).words.Pairwise _
    rw [Context.image_words, List.pairwise_filterMap]
    refine (hlines.and hordered).imp ?_
    intro earlier later ⟨hline, hbefore⟩ first hfirst second hsecond
    obtain ⟨hfirstLine, hfirstAddress, -⟩ := Context.eq_of_wordOf? hfirst
    obtain ⟨hsecondLine, hsecondAddress, -⟩ := Context.eq_of_wordOf? hsecond
    have hroom := Context.room_of_wordOf? hfirst
    have hstop : earlier.address + earlier.content.room ≤ later.address := hbefore
    rw [hfirstLine, hsecondLine, hfirstAddress, hsecondAddress]
    exact ⟨hline, by omega⟩

/-- A program in which every kind of thing takes addresses. -/
def crowdedProgram : String :=
  " START 100\n ADD AREG ='5'\nA DS 3\n LTORG\nB DC 7\n SUB AREG ='6'\n"

theorem extents_crowdedProgram :
    (∀ record ∈ (assemble crowdedProgram).records, record.content.isOrigin = false) ∧
      (assemble crowdedProgram).extents =
        [⟨100, 0⟩, ⟨100, 1⟩, ⟨101, 3⟩, ⟨104, 0⟩, ⟨105, 1⟩, ⟨106, 1⟩, ⟨104, 1⟩, ⟨107, 1⟩] ∧
      ((assemble crowdedProgram).extents.Pairwise fun extent other =>
        Disjoint extent.addresses other.addresses) := by
  have horigin : ∀ record ∈ (assemble crowdedProgram).records,
      record.content.isOrigin = false := by decide +kernel
  exact ⟨horigin, by decide +kernel, (extents_disjoint crowdedProgram horigin).1⟩

end Assembler
