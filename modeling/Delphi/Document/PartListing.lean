/-
# Delphi.Document.PartListing -- what storage holds of a multipart, page by page

`list_parts` of `s3.rs`, with `classify`.  Storage lists a bounded number of parts a
page, so the adapter goes on from the marker each page ends with, while the client
puts parts and the multipart may be completed or reaped.

Whatever happens between the pages, the loop ends, and what it answers is in order,
was put, and leaves out no part that was in place when it began
(`listed_parts_of_run`).  Fuel stands for the loop; it does not run out.
-/
import Delphi.Document.Assembly
import Delphi.Document.Geometry

namespace Delphi.Document

open Delphi.Theory

set_option autoImplicit false

/-! ## Storage errors -/

/-- The SDK's errors, as far as they are told apart. -/
inductive SdkError where
  | timeoutError (message : String)
  | dispatchFailure (message : String)
  | serviceError (code : Option String) (status : Nat) (message : String)
  | other (message : String)

def SdkError.display : SdkError → String
  | .timeoutError message => message
  | .dispatchFailure message => message
  | .serviceError _ _ message => message
  | .other message => message

namespace S3BlobStore

/-- What the worker can do about a service error. -/
def kindOf (code : String) (status : Nat) : BlobErrorKind :=
  if code = "NoSuchUpload" then .noSuchUpload
  else if code = "NoSuchKey" ∨ code = "NotFound" then .notFound
  else if code = "InvalidPart" ∨ code = "InvalidPartOrder" ∨ code = "EntityTooSmall" then
    .invalidParts
  else if code = "SlowDown" ∨ code = "RequestTimeout" ∨ code = "InternalError" ∨
      code = "ServiceUnavailable" then .transient
  else if status = 404 then .notFound
  else if status = 429 ∨ 500 ≤ status ∧ status < 600 then .transient
  else .permanent

def classify (error : SdkError) (context : String) : BlobError :=
  let message := context ++ ": " ++ error.display
  match error with
  | .timeoutError _ => ⟨.transient, message⟩
  | .dispatchFailure _ => ⟨.transient, message⟩
  | .serviceError code status _ =>
      ⟨kindOf (code.getD "") status, message ++ " (code " ++ code.getD "" ++ ", status " ++
        toString status ++ ")"⟩
  | .other _ => ⟨.permanent, message⟩

/-! ## The loop -/

structure S3Part where
  partNumber : Option Int
  eTag : Option String
  size : Option Int

structure ListPartsOutput where
  parts : List S3Part
  isTruncated : Option Bool
  nextPartNumberMarker : Option String

/-- One request for a page, after the marker. -/
inductive PageCall where
  | listParts (marker : Option Int)

@[reducible] def PageCall.Ans : PageCall → Type
  | .listParts _ => Except SdkError ListPartsOutput

abbrev PagePorts : Signature := ⟨PageCall, PageCall.Ans⟩

/-- `part_number() as u16`, and a size that is not negative. -/
def uploadedPart (part : S3Part) : UploadedPart where
  partNumber := (max (part.partNumber.getD 0) 0).toNat % 2 ^ 16
  etag := part.eTag.getD ""
  size := (max (part.size.getD 0) 0).toNat

/-- `str::parse` for an `i32`. -/
def parseI32 (text : String) : Option Int :=
  (parseI64 text.toList).bind fun value =>
    if -2 ^ 31 ≤ value ∧ value < 2 ^ 31 then some value else none

abbrev Listed := Option (Except BlobError (Option (List UploadedPart)))

/-- The loop from a marker; without fuel it has no answer. -/
def listPartsFrom : Nat → Option Int → List UploadedPart → Program PagePorts Listed
  | 0, _, _ => return none
  | fuel + 1, marker, parts => do
      match (← Program.perform (S := PagePorts) (.listParts marker) :
          Except SdkError ListPartsOutput) with
      | .error error =>
          let classified := classify error "list parts"
          if classified.kind = .noSuchUpload then return some (.ok none)
          else return some (.error classified)
      | .ok output =>
          let parts := parts ++ output.parts.map uploadedPart
          if output.isTruncated.getD false then
            match output.nextPartNumberMarker.bind parseI32 with
            | none => return some (.ok (some parts))
            | some marker => listPartsFrom fuel (some marker) parts
          else return some (.ok (some parts))

/-- A page for each part there can be. -/
def listParts : Program PagePorts Listed := listPartsFrom (maxParts + 1) none []

theorem parseI32_toString {n : Nat} (small : n ≤ maxParts) :
    parseI32 (toString n) = some (n : Int) := by
  have bound : n ≤ 10000 := small
  have whole : inI64 n = some (n : Int) := if_pos (by omega)
  show (parseI64 n.repr.toList).bind _ = some (n : Int)
  rw [parseI64_of_unsigned (not_mem_repr (by decide)) (not_mem_repr (by decide)), parseDigits_repr,
    Option.bind_some, whole, Option.bind_some, if_pos (by omega)]

end S3BlobStore

/-! ## The multipart -/

structure HeldPart where
  etag : String
  size : Nat
deriving DecidableEq

/-- The multipart's parts, while there is one, and every part that was ever put. -/
structure PartStore where
  held : Option (Nat → Option HeldPart)
  put : List (Nat × HeldPart)

namespace PartStore

def empty : PartStore := ⟨some fun _ => none, []⟩

/-- What storage says of a part. -/
def entry (held : Nat → Option HeldPart) (n : Nat) : S3BlobStore.S3Part :=
  ⟨some n, (held n).map HeldPart.etag, (held n).map fun part => part.size⟩

/-- A page after a marker: parts in order, and none is left out before the last one listed,
or at all when the page says it is the last. -/
structure IsPage (held : Nat → Option HeldPart) (after : Nat) (output : S3BlobStore.ListPartsOutput)
    (numbers : List Nat) : Prop where
  rising : numbers.Pairwise (· < ·)
  within : ∀ n ∈ numbers, after < n ∧ (held n).isSome = true
  parts : output.parts = numbers.map (entry held)
  truncated : output.isTruncated = some true → ∃ last, numbers.getLast? = some last ∧
    output.nextPartNumberMarker = some (toString last) ∧
    ∀ n, after < n → n ≤ last → (held n).isSome = true → n ∈ numbers
  last : output.isTruncated ≠ some true → ∀ n, after < n → (held n).isSome = true → n ∈ numbers

def after (marker : Option Int) : Nat := (marker.getD 0).toNat

def serves (s : PartStore) : (op : S3BlobStore.PageCall) → op.Ans → PartStore → Prop
  | .listParts marker, answer, s' => s' = s ∧
      (∀ output, answer = .ok output →
        ∃ held numbers, s.held = some held ∧ IsPage held (after marker) output numbers) ∧
      ∀ error, answer = .error error →
        (S3BlobStore.classify error "list parts").kind = .noSuchUpload → s.held = none

/-- The client puts a part, again or not, or the multipart goes. -/
inductive Moves (s : PartStore) : PartStore → Prop where
  | put {held : Nat → Option HeldPart} (n : Nat) (part : HeldPart) (open_ : s.held = some held)
      (one : 1 ≤ n) (most : n ≤ maxParts) :
      Moves s ⟨some (Function.update held n (some part)), (n, part) :: s.put⟩
  | gone : Moves s { s with held := none }

/-- The parts are numbered from one to the most there can be, and were put. -/
def Sound (s : PartStore) : Prop := ∀ held, s.held = some held → ∀ n part, held n = some part →
  1 ≤ n ∧ n ≤ maxParts ∧ (n, part) ∈ s.put

/-- These parts are in place, while the multipart is. -/
def InPlace (numbers : List Nat) (s : PartStore) : Prop :=
  ∀ held, s.held = some held → ∀ n ∈ numbers, (held n).isSome = true

variable {s s' : PartStore}

theorem Sound.moves (sound : s.Sound) (moves : s.Moves s') : s'.Sound := by
  cases moves with
  | @put held n part open_ one most =>
      rintro _ ⟨⟩ m other found
      by_cases same : m = n
      · subst same
        rw [Function.update_self] at found
        obtain rfl := Option.some.inj found
        exact ⟨one, most, List.mem_cons_self⟩
      · rw [Function.update_of_ne same] at found
        obtain ⟨low, high, mem⟩ := sound held open_ m other found
        exact ⟨low, high, List.mem_cons_of_mem _ mem⟩
  | gone => exact fun _ impossible => nomatch impossible

theorem InPlace.moves {numbers : List Nat} (inPlace : InPlace numbers s) (moves : s.Moves s') :
    InPlace numbers s' := by
  cases moves with
  | @put held n part open_ one most =>
      rintro _ ⟨⟩ m mem
      by_cases same : m = n
      · subst same
        rw [Function.update_self]
        rfl
      · rw [Function.update_of_ne same]
        exact inPlace held open_ m mem
  | gone => exact fun _ impossible => nomatch impossible

theorem put_of_moves (moves : s.Moves s') : ∀ entry ∈ s.put, entry ∈ s'.put := by
  cases moves with
  | put n part open_ one most => exact fun _ mem => List.mem_cons_of_mem _ mem
  | gone => exact fun _ mem => mem

theorem held_of_moves (moves : s.Moves s') (gone : s.held = none) : s'.held = none := by
  cases moves with
  | put n part open_ one most =>
      rw [gone] at open_
      cases open_
  | gone => rfl

end PartStore

/-! ## Runs -/

/-- A listing that began when these parts were in place. -/
structure Listing where
  before : List Nat

/-- Any number of listings, beside the client and the reaper. -/
def partListings : System S3BlobStore.PagePorts PartStore Listing S3BlobStore.Listed where
  main _ := S3BlobStore.listParts
  admits s listing := PartStore.InPlace listing.before s
  serves _ op s answer s' := s.serves op answer s'
  environment := PartStore.Moves

/-- What a page tells: its parts were put, and after the marker nothing of what was in place is
left out. -/
structure Tells (before : List Nat) (s : PartStore) (after : Nat)
    (output : S3BlobStore.ListPartsOutput) (listed : List UploadedPart) : Prop where
  shown : output.parts.map S3BlobStore.uploadedPart = listed
  numbered : ∀ n ∈ before, 1 ≤ n
  rising : (listed.map UploadedPart.partNumber).Pairwise (· < ·)
  within : ∀ part ∈ listed, after < part.partNumber ∧ part.partNumber ≤ maxParts ∧
    (part.partNumber, HeldPart.mk part.etag part.size) ∈ s.put
  truncated : output.isTruncated = some true → ∃ last, after < last ∧ last ≤ maxParts ∧
    output.nextPartNumberMarker = some (toString last) ∧
    (∀ part ∈ listed, part.partNumber ≤ last) ∧
    ∀ n ∈ before, after < n → n ≤ last → n ∈ listed.map UploadedPart.partNumber
  last : output.isTruncated ≠ some true → ∀ n ∈ before, after < n →
    n ∈ listed.map UploadedPart.partNumber

def pageFacts : Invariants S3BlobStore.PagePorts PartStore Listing where
  inv := PartStore.Sound
  input s input := PartStore.InPlace input.before s
  fact input s _ op answer := match op, answer with
    | .listParts marker, .ok output =>
        ∃ listed, Tells input.before s (PartStore.after marker) output listed
    | .listParts _, .error error =>
        (S3BlobStore.classify error "list parts").kind = .noSuchUpload → s.held = none

section Run

variable {s s' : PartStore} {before : List Nat}

theorem uploadedPart_entry {held : Nat → Option HeldPart} {n : Nat} {part : HeldPart}
    (found : held n = some part) (small : n ≤ maxParts) :
    S3BlobStore.uploadedPart (PartStore.entry held n) = ⟨n, part.etag, part.size⟩ := by
  have bound : n ≤ 10000 := small
  have number : (max (n : Int) 0).toNat % 2 ^ 16 = n := by omega
  have size : (max (part.size : Int) 0).toNat = part.size := by omega
  simp only [S3BlobStore.uploadedPart, PartStore.entry, found, Option.map_some, Option.getD_some,
    number, size]

/-- A page of a multipart whose parts were put tells of them. -/
theorem tells_of_page {held : Nat → Option HeldPart} {after : Nat} {numbers : List Nat}
    {output : S3BlobStore.ListPartsOutput} (sound : s.Sound) (open_ : s.held = some held)
    (inPlace : PartStore.InPlace before s) (page : PartStore.IsPage held after output numbers) :
    ∃ listed, Tells before s after output listed := by
  have known : ∀ n ∈ numbers, ∃ part, held n = some part ∧ n ≤ maxParts ∧ (n, part) ∈ s.put := by
    intro n mem
    obtain ⟨part, found⟩ := Option.isSome_iff_exists.mp (page.within n mem).2
    obtain ⟨-, small, put⟩ := sound held open_ n part found
    exact ⟨part, found, small, put⟩
  have same : ((output.parts.map S3BlobStore.uploadedPart).map UploadedPart.partNumber) =
      numbers := by
    rw [page.parts, List.map_map, List.map_map]
    refine (List.map_congr_left fun n mem => ?_).trans (List.map_id numbers)
    obtain ⟨part, found, small, -⟩ := known n mem
    exact congrArg UploadedPart.partNumber (uploadedPart_entry found small)
  refine ⟨_, rfl, fun n mem => ?_, same ▸ page.rising, fun part mem => ?_, fun truncated => ?_,
    fun last n mem above => same ▸ page.last last n above (inPlace held open_ n mem)⟩
  · obtain ⟨part, found⟩ := Option.isSome_iff_exists.mp (inPlace held open_ n mem)
    exact (sound held open_ n part found).1
  · rw [page.parts, List.map_map] at mem
    obtain ⟨n, inNumbers, rfl⟩ := List.mem_map.mp mem
    obtain ⟨part, found, small, put⟩ := known n inNumbers
    rw [Function.comp_apply, uploadedPart_entry found small]
    exact ⟨(page.within n inNumbers).1, small, put⟩
  · obtain ⟨last, isLast, marker, covered⟩ := page.truncated truncated
    have inNumbers := List.mem_of_getLast? isLast
    obtain ⟨part, found, small, -⟩ := known last inNumbers
    refine ⟨last, (page.within last inNumbers).1, small, marker, fun part mem => ?_,
      fun n mem above below => same ▸ covered n above below (inPlace held open_ n mem)⟩
    obtain ⟨front, rfl⟩ := List.getLast?_eq_some_iff.mp isLast
    have mem : part.partNumber ∈ front ++ [last] := same ▸ List.mem_map_of_mem mem
    rcases List.mem_append.mp mem with earlier | here
    · exact Nat.le_of_lt ((List.pairwise_append.mp page.rising).2.2 _ earlier last
        (List.mem_singleton_self _))
    · exact Nat.le_of_eq (List.mem_singleton.mp here)

/-- What is listed so far: everything up to the marker. -/
structure Progress (before : List Nat) (s : PartStore) (after : Nat) (parts : List UploadedPart) :
    Prop where
  rising : (parts.map UploadedPart.partNumber).Pairwise (· < ·)
  within : ∀ part ∈ parts, part.partNumber ≤ after ∧
    (part.partNumber, HeldPart.mk part.etag part.size) ∈ s.put
  covers : ∀ n ∈ before, 1 ≤ n → n ≤ after → n ∈ parts.map UploadedPart.partNumber

/-- A complete listing. -/
structure Lists (before : List Nat) (s : PartStore) (parts : List UploadedPart) : Prop where
  rising : (parts.map UploadedPart.partNumber).Pairwise (· < ·)
  put : ∀ part ∈ parts, (part.partNumber, HeldPart.mk part.etag part.size) ∈ s.put
  covers : ∀ n ∈ before, n ∈ parts.map UploadedPart.partNumber

/-- What the loop answers. -/
def PagesAnswer (before : List Nat) (s : PartStore) : S3BlobStore.Listed → Prop
  | none => False
  | some (.error error) => error.kind ≠ .noSuchUpload
  | some (.ok none) => s.held = none
  | some (.ok (some parts)) => Lists before s parts

variable {after : Nat} {parts listed : List UploadedPart} {output : S3BlobStore.ListPartsOutput}

theorem Progress.start : Progress before s 0 [] :=
  ⟨.nil, nofun, fun _ _ one none_ => absurd one (by omega)⟩

theorem Progress.rising_append (progress : Progress before s after parts)
    (tells : Tells before s after output listed) :
    ((parts ++ listed).map UploadedPart.partNumber).Pairwise (· < ·) := by
  rw [List.map_append, List.pairwise_append]
  refine ⟨progress.rising, tells.rising, fun n old m new => ?_⟩
  obtain ⟨part, mem, rfl⟩ := List.mem_map.mp old
  obtain ⟨other, mem', rfl⟩ := List.mem_map.mp new
  exact (progress.within part mem).1.trans_lt (tells.within other mem').1

theorem Progress.put_append (progress : Progress before s after parts)
    (tells : Tells before s after output listed) : ∀ part ∈ parts ++ listed,
    (part.partNumber, HeldPart.mk part.etag part.size) ∈ s.put := by
  intro part mem
  rcases List.mem_append.mp mem with old | new
  · exact (progress.within part old).2
  · exact (tells.within part new).2.2

/-- The step lemma: a page that is not the last moves the marker on. -/
theorem Progress.page (progress : Progress before s after parts)
    (tells : Tells before s after output listed) (truncated : output.isTruncated = some true) :
    ∃ last, after < last ∧ last ≤ maxParts ∧
      output.nextPartNumberMarker = some (toString last) ∧
      Progress before s last (parts ++ listed) := by
  obtain ⟨last, above, small, marker, below, covered⟩ := tells.truncated truncated
  refine ⟨last, above, small, marker, progress.rising_append tells, fun part mem => ?_, ?_⟩
  · refine ⟨?_, progress.put_append tells part mem⟩
    rcases List.mem_append.mp mem with old | new
    · exact (progress.within part old).1.trans (Nat.le_of_lt above)
    · exact below part new
  · intro n mem one upTo
    rw [List.map_append, List.mem_append]
    by_cases old : n ≤ after
    · exact .inl (progress.covers n mem one old)
    · exact .inr (covered n mem (Nat.lt_of_not_le old) upTo)

/-- The last page completes the listing. -/
theorem Progress.lists (progress : Progress before s after parts)
    (tells : Tells before s after output listed) (last : output.isTruncated ≠ some true) :
    Lists before s (parts ++ listed) := by
  refine ⟨progress.rising_append tells, progress.put_append tells, fun n mem => ?_⟩
  rw [List.map_append, List.mem_append]
  by_cases old : n ≤ after
  · exact .inl (progress.covers n mem (tells.numbered n mem) old)
  · exact .inr (tells.last last n mem (Nat.lt_of_not_le old))

/-- By induction on the fuel: the marker moves on with every page, and there are only so many
parts. -/
theorem along_listPartsFrom (fuel : Nat) (marker : Option Int)
    {trace : Trace S3BlobStore.PagePorts}
    (progress : Progress before s (PartStore.after marker) parts)
    (enough : maxParts < fuel + PartStore.after marker)
    (small : PartStore.after marker ≤ maxParts) :
    Along (pageFacts.fact ⟨before⟩ s) (fun _ _ => True) (fun _ result => PagesAnswer before s result)
      trace (S3BlobStore.listPartsFrom fuel marker parts) := by
  induction fuel generalizing marker parts trace with
  | zero => omega
  | succ fuel ih =>
      refine along_perform trivial fun answer tells => ?_
      cases answer with
      | error error =>
          dsimp only
          split
          · rename_i gone
            exact tells gone
          · rename_i other
            exact other
      | ok output =>
          obtain ⟨listed, tells⟩ := tells
          dsimp only
          rw [tells.shown]
          cases truncated : output.isTruncated.getD false with
          | true =>
              have truncated : output.isTruncated = some true := by
                cases flag : output.isTruncated with
                | none => simp [flag] at truncated
                | some value => simpa [flag] using truncated
              obtain ⟨last, above, most, next, later⟩ := progress.page tells truncated
              have marked : output.nextPartNumberMarker.bind S3BlobStore.parseI32 =
                  some (last : Int) := by
                rw [next, Option.bind_some, S3BlobStore.parseI32_toString most]
              rw [marked]
              have here : PartStore.after (some (last : Int)) = last := rfl
              exact ih (some last) (here.symm ▸ later) (by omega) (by omega)
          | false =>
              exact progress.lists tells (by rintro flag; simp [flag] at truncated)

theorem holds_listing {c : Config S3BlobStore.PagePorts PartStore Listing S3BlobStore.Listed}
    (reached : partListings.Reaches System.anyStep ⟨.empty, []⟩ c) :
    pageFacts.Holds partListings c := by
  have start : pageFacts.inv .empty := by
    rintro _ ⟨⟩ n part found
    cases found
  refine Invariants.holds_of_reaches (I := pageFacts) start (fun _ _ _ admitted => admitted) ?_ ?_
    reached
  · intro c n t op next answer s' holds found stands served _
    have knows := holds.tasks t (System.mem_of_found found)
    cases op with
    | listParts marker =>
        obtain ⟨rfl, page, gone⟩ := served
        refine ⟨.refl pageFacts holds.inv, ?_⟩
        cases answer with
        | error error => exact gone error rfl
        | ok output =>
            obtain ⟨held, numbers, open_, isPage⟩ := page output rfl
            exact tells_of_page holds.inv open_ knows.input isPage
  · intro c s' holds moves _
    have put := PartStore.put_of_moves moves
    refine ⟨PartStore.Sound.moves holds.inv moves, fun _ inPlace => inPlace.moves moves, ?_⟩
    intro input trace op answer tells
    cases op with
    | listParts marker =>
        cases answer with
        | error error => exact fun gone => PartStore.held_of_moves moves (tells gone)
        | ok output =>
            obtain ⟨listed, tells⟩ := tells
            refine ⟨listed, tells.shown, tells.numbered, tells.rising, fun part mem => ?_,
              tells.truncated, tells.last⟩
            obtain ⟨above, small, known⟩ := tells.within part mem
            exact ⟨above, small, put _ known⟩

/-- In every run, a listing that has returned has not run out of pages; it reports the multipart
as gone only when it is; the parts it lists are in ascending order, were put as they are
listed, and are all that were in place when it began.  If those were all parts of a file, a
completion with them assembles the file. -/
theorem listed_parts_of_run
    {c : Config S3BlobStore.PagePorts PartStore Listing S3BlobStore.Listed}
    (reached : partListings.Reaches System.anyStep ⟨.empty, []⟩ c)
    {t : Task S3BlobStore.PagePorts Listing S3BlobStore.Listed} (mem : t ∈ c.tasks)
    {result : S3BlobStore.Listed} (returned : t.rest = .ret result) :
    result ≠ none ∧
    (result = some (.ok none) → c.shared.held = none) ∧
    ∀ parts, result = some (.ok (some parts)) →
      (parts.map UploadedPart.partNumber).Pairwise (· < ·) ∧
      (∀ part ∈ parts, (part.partNumber, HeldPart.mk part.etag part.size) ∈ c.shared.put) ∧
      (∀ n ∈ t.input.before, n ∈ parts.map UploadedPart.partNumber) ∧
      ∀ (site : Site) (files : Files site) (key : String) (stored picked : List StoredPart),
        (∀ part ∈ stored, files.Cuts key part) →
        (∀ n, IsPart (files.partSize key) (files.file key) n → n ∈ t.input.before) →
        BlobState.Completable stored (UploadFinisher.completedParts parts) picked →
        picked.flatMap StoredPart.bytes = files.file key := by
  have knows := (holds_listing reached).tasks t mem
  have along : Along (pageFacts.fact t.input c.shared) (fun _ _ => True)
      (fun _ result => PagesAnswer t.input.before c.shared result) [] (partListings.main t.input) :=
    along_listPartsFrom _ none .start (Nat.lt_succ_self _) (Nat.zero_le _)
  have answers : PagesAnswer t.input.before c.shared result := knows.returns along returned
  refine ⟨?_, ?_, ?_⟩
  · rintro rfl
    exact answers
  · rintro rfl
    exact answers
  · rintro parts rfl
    have lists : Lists t.input.before c.shared parts := answers
    refine ⟨lists.rising, lists.put, lists.covers, ?_⟩
    intro site files key stored picked cut all completable
    exact files.file_of_completable cut completable fun n isPart =>
      lists.covers n (all n isPart)

end Run

/-! ## Two pages -/

namespace Sample

/-- Parts `1` to `count`, one byte each. -/
def heldUpTo (count n : Nat) : Option HeldPart :=
  if 1 ≤ n ∧ n ≤ count then some ⟨"e", 1⟩ else none

def storeOf (count : Nat) : PartStore :=
  ⟨some (heldUpTo count), (List.range' 1 count).reverse.map fun n => (n, ⟨"e", 1⟩)⟩

theorem moves_storeOf {count : Nat} (most : count < maxParts) :
    (storeOf count).Moves (storeOf (count + 1)) := by
  have next : storeOf (count + 1) = ⟨some (Function.update (heldUpTo count) (count + 1)
      (some ⟨"e", 1⟩)), (count + 1, ⟨"e", 1⟩) :: (storeOf count).put⟩ := by
    unfold storeOf
    rw [List.range'_concat, PartStore.mk.injEq]
    refine ⟨congrArg some ?_, by simp [Nat.add_comm 1]⟩
    funext n
    by_cases same : n = count + 1
    · subst same
      rw [Function.update_self, heldUpTo, if_pos (by omega)]
    · rw [Function.update_of_ne same, heldUpTo, heldUpTo]
      congr 1
      simp only [eq_iff_iff]
      omega
  rw [next]
  exact .put (count + 1) ⟨"e", 1⟩ rfl (by omega) most

def firstPage : S3BlobStore.ListPartsOutput :=
  ⟨[⟨some 1, some "e", some 1⟩, ⟨some 2, some "e", some 1⟩], some true, some "2"⟩

def lastPage : S3BlobStore.ListPartsOutput :=
  ⟨[⟨some 3, some "e", some 1⟩, ⟨some 4, some "e", some 1⟩], some false, none⟩

theorem isPage_firstPage : PartStore.IsPage (heldUpTo 3) 0 firstPage [1, 2] where
  rising := by decide
  within := by decide
  parts := rfl
  truncated _ := by
    refine ⟨2, rfl, rfl, fun n above upTo _ => ?_⟩
    simp only [List.mem_cons, List.not_mem_nil, or_false]
    omega
  last notLast := absurd rfl notLast

theorem isPage_lastPage : PartStore.IsPage (heldUpTo 4) 2 lastPage [3, 4] where
  rising := by decide
  within := by decide
  parts := rfl
  truncated := nofun
  last _ n above found := by
    have within : 1 ≤ n ∧ n ≤ 4 := by
      by_contra outside
      rw [heldUpTo, if_neg outside] at found
      cases found
    simp only [List.mem_cons, List.not_mem_nil, or_false]
    omega

/-- Three parts are in place; a fourth is put between the pages. -/
theorem listed_parts_of_run_grown :
    ∃ (c : Config S3BlobStore.PagePorts PartStore Listing S3BlobStore.Listed) (parts : _),
      partListings.Reaches System.anyStep ⟨.empty, []⟩ c ∧
      (∃ t ∈ c.tasks, t.rest = .ret (some (.ok (some parts)))) ∧
      parts.map UploadedPart.partNumber = [1, 2, 3, 4] ∧
      ∀ part ∈ parts, (part.partNumber, HeldPart.mk part.etag part.size) ∈ (storeOf 4).put := by
  have start : partListings.Reaches System.anyStep ⟨.empty, []⟩ ⟨.empty, []⟩ := .refl _
  have none_ : PartStore.empty = storeOf 0 := by
    refine PartStore.mk.injEq .. |>.mpr ⟨congrArg some (funext fun n => ?_), rfl⟩
    exact (if_neg (by omega)).symm
  have three : partListings.Reaches System.anyStep ⟨.empty, []⟩ ⟨storeOf 3, []⟩ :=
    ((start.disturbed _ (none_ ▸ moves_storeOf (by decide)) trivial).disturbed _
      (moves_storeOf (by decide)) trivial).disturbed _ (moves_storeOf (by decide)) trivial
  have begun := three.spawned ⟨[1, 2, 3]⟩ (by rintro _ ⟨⟩; decide) trivial
  have paged := begun.called 0 rfl rfl (.ok firstPage) (storeOf 3)
    ⟨rfl, by rintro _ ⟨⟩; exact ⟨_, _, rfl, isPage_firstPage⟩, nofun⟩ trivial
  have grown := paged.disturbed (storeOf 4) (moves_storeOf (by decide)) trivial
  have done := grown.called 0 rfl rfl (.ok lastPage) (storeOf 4)
    ⟨rfl, by rintro _ ⟨⟩; exact ⟨_, _, rfl, isPage_lastPage⟩, nofun⟩ trivial
  obtain ⟨-, -, lists⟩ := listed_parts_of_run done (List.mem_singleton_self _) rfl
  obtain ⟨-, put, -⟩ := lists _ rfl
  exact ⟨_, _, done, ⟨_, List.mem_singleton_self _, rfl⟩, rfl, put⟩

end Sample

end Delphi.Document
