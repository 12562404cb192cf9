import FormLogic.Catalogue.Session
import FormLogic.Proofs.Catalogue.Listing

/-!
This module contains the proof that clones of a handle are as good as the handle itself and that
other handles do not matter. The handles that were cloned from one another are a family, named
after the handle that was created first. A catalogue that is alone and gets only what is asked of a
family gives the same answers, whatever is asked of other families in between.
-/

namespace FormLogic

namespace Catalogue

theorem performAll_append (c : Catalogue) (requests more : List Request)
    : (c.performAll (requests ++ more)).1 = ((c.performAll requests).1.performAll more).1 := by
  induction requests generalizing c with
  | nil => rfl
  | cons request requests ih => exact ih (c.perform request).1

theorem evaluator_loadAll (c : Catalogue) (fields : List Field)
    : (c.loadAll fields).evaluator = c.evaluator := by
  unfold loadAll
  induction fields generalizing c with
  | nil => rfl
  | cons f fields ih =>
    rw [List.foldl_cons, ih]
    unfold load
    cases c.entries[f.name]? <;> rfl

theorem evaluator_perform (c : Catalogue) (request : Request)
    : (c.perform request).1.evaluator = c.evaluator := by
  have ⟨hperform, _⟩ := c.perform_eq_apply request
  rw [hperform]
  cases request.edit? c.contains with
  | none => rfl
  | some edit =>
    cases edit with
    | load fields => exact c.evaluator_loadAll fields
    | delete name => rfl
    | clear => rfl

end Catalogue

namespace Session

/--
For each handle the one that its family was created with.
-/
def join (founders : List Nat) : Request → List Nat
  | .toHandle _ _ => founders
  | .clone handle => founders ++ founders[handle]?.toList
  | .create => founders ++ [founders.length]

def foundersAfter (requests : List Request) : List Nat := requests.foldl join [0]

def Request.for? (founders : List Nat) (family : Nat) : Request → Option Catalogue.Request
  | .toHandle handle request => if founders[handle]? = some family then some request else none
  | .clone _ | .create => none

def received (founders : List Nat) (family : Nat) : List Request → List Catalogue.Request
  | [] => []
  | request :: requests =>
    (request.for? founders family).toList ++ received (join founders request) family requests

def founded (evaluator : Evaluator) (family : Nat) : Catalogue :=
  .empty (if family = 0 then evaluator else .ofTracing false)

/--
The catalogue of the family if there were no other.
-/
def alone (evaluator : Evaluator) (family : Nat) (earlier : List Request) : Catalogue :=
  ((founded evaluator family).performAll (received [0] family earlier)).1

def answerFrom (founders : List Nat) (views : Nat → Catalogue) : Request → Answer
  | .toHandle handle request =>
    match founders[handle]? with
    | none => .noSuchHandle
    | some family => .answer ((views family).perform request).2
  -- Handles are numbered as they come.
  | .clone handle =>
    if handle < founders.length then .handle founders.length else .noSuchHandle
  | .create => .handle founders.length

def Request.IsRedirected (founders : List Nat) : Request → Request → Prop
  | .toHandle handle request, .toHandle other request' =>
    founders[handle]? = founders[other]? ∧ request = request'
  | .clone handle, .clone other => founders[handle]? = founders[other]?
  | .create, .create => True
  | _, _ => False

def AreRedirected (founders : List Nat) : List Request → List Request → Prop
  | [], [] => True
  | request :: requests, other :: others =>
    request.IsRedirected founders other ∧ AreRedirected (join founders request) requests others
  | _, _ => False

structure Handle.IsApart (h other : Handle) : Prop where
  entries : h.entries ≠ other.entries
  lastRevision : h.lastRevision ≠ other.lastRevision
  nextPlace : h.nextPlace ≠ other.nextPlace
  evaluator : h.evaluator ≠ other.evaluator

theorem Handle.IsApart.symm {h other : Handle} (happart : h.IsApart other) : other.IsApart h :=
  ⟨happart.entries.symm, happart.lastRevision.symm, happart.nextPlace.symm, happart.evaluator.symm⟩

theorem catalogue?_eq_some_iff (s : Session) (h : Handle) (c : Catalogue)
    : s.catalogue? h = some c
        ↔
      s.entries[h.entries]? = some c.entries
        ∧ s.lastRevisions[h.lastRevision]? = some c.lastRevision
        ∧ s.nextPlaces[h.nextPlace]? = some c.nextPlace
        ∧ s.evaluators[h.evaluator]? = some c.evaluator := by
  rcases c with ⟨entries, lastRevision, nextPlace, evaluator⟩
  unfold catalogue?
  simp only [Option.bind_eq_bind, Option.bind_eq_some_iff, Option.pure_def, Option.some.injEq,
    Catalogue.mk.injEq]
  constructor
  . intro h
    rcases h with ⟨_, h₁, _, h₂, _, h₃, _, h₄, rfl, rfl, rfl, rfl⟩
    exact ⟨h₁, h₂, h₃, h₄⟩
  . intro h
    exact ⟨_, h.1, _, h.2.1, _, h.2.2.1, _, h.2.2.2, rfl, rfl, rfl, rfl⟩

section Parts

variable {s : Session} {h other : Handle} {c : Catalogue}

theorem catalogue?_store_self (hc : s.catalogue? h = some c) {next : Catalogue}
    (hevaluator : next.evaluator = c.evaluator)
    : (s.store h next).catalogue? h = some next := by
  rw [catalogue?_eq_some_iff] at hc ⊢
  rcases hc with ⟨hentries, hlast, hplace, heval⟩
  rw [List.getElem?_eq_some_iff] at hentries hlast hplace
  refine ⟨?_, ?_, ?_, ?_⟩
  . exact List.getElem?_set_self hentries.1
  . exact List.getElem?_set_self hlast.1
  . exact List.getElem?_set_self hplace.1
  . rw [hevaluator]
    exact heval

theorem catalogue?_store_of_isApart (happart : h.IsApart other) (next : Catalogue)
    : (s.store h next).catalogue? other = s.catalogue? other := by
  unfold catalogue? store
  dsimp only
  rw [List.getElem?_set_ne happart.entries, List.getElem?_set_ne happart.lastRevision,
    List.getElem?_set_ne happart.nextPlace]

theorem isApart_nextHandle (hc : s.catalogue? h = some c) : h.IsApart s.nextHandle := by
  rw [catalogue?_eq_some_iff] at hc
  simp only [List.getElem?_eq_some_iff] at hc
  rcases hc with ⟨⟨hentries, _⟩, ⟨hlast, _⟩, ⟨hplace, _⟩, heval, _⟩
  exact ⟨Nat.ne_of_lt hentries, Nat.ne_of_lt hlast, Nat.ne_of_lt hplace, Nat.ne_of_lt heval⟩

theorem getElem?_append_of_eq_some {α : Type} {values : List α} {position : Nat} {value : α}
    (h : values[position]? = some value) (more : List α)
    : (values ++ more)[position]? = some value := by
  rw [List.getElem?_append_left, h]
  exact (List.getElem?_eq_some_iff.mp h).1

theorem catalogue?_create (hc : s.catalogue? h = some c) (evaluator : Evaluator)
    : (s.create evaluator).catalogue? h = some c := by
  rw [catalogue?_eq_some_iff] at hc ⊢
  rcases hc with ⟨hentries, hlast, hplace, heval⟩
  refine ⟨?_, ?_, ?_, ?_⟩
  . exact getElem?_append_of_eq_some hentries _
  . exact getElem?_append_of_eq_some hlast _
  . exact getElem?_append_of_eq_some hplace _
  . exact getElem?_append_of_eq_some heval _

theorem catalogue?_create_nextHandle (s : Session) (evaluator : Evaluator)
    : (s.create evaluator).catalogue? s.nextHandle = some (.empty evaluator) := by
  rw [catalogue?_eq_some_iff]
  unfold create nextHandle
  simp

end Parts

structure Keeps (s : Session) (founders : List Nat) (parts : Nat → Handle)
    (views : Nat → Catalogue) : Prop where
  -- The handles of a family are one and the same.
  handles_eq : s.handles = founders.map parts
  catalogue?_eq : ∀ family ∈ founders, s.catalogue? (parts family) = some (views family)
  apart : ∀ family ∈ founders, ∀ other ∈ founders, family ≠ other
    → (parts family).IsApart (parts other)
  lt_length : ∀ family ∈ founders, family < founders.length
  unused : ∀ family, founders.length ≤ family → views family = .empty (.ofTracing false)

def advance (founders : List Nat) (views : Nat → Catalogue) (request : Request) (family : Nat)
    : Catalogue :=
  ((views family).performAll (request.for? founders family).toList).1

theorem advance_of_eq {founders : List Nat} {handle family : Nat}
    (h : founders[handle]? = some family) (views : Nat → Catalogue) (request : Catalogue.Request)
    : advance founders views (.toHandle handle request) family
        =
      ((views family).perform request).1 := by
  simp only [advance, Request.for?, if_pos h]
  rfl

theorem advance_of_ne {founders : List Nat} {handle family : Nat}
    (h : founders[handle]? ≠ some family) (views : Nat → Catalogue) (request : Catalogue.Request)
    : advance founders views (.toHandle handle request) family = views family := by
  simp only [advance, Request.for?, if_neg h]
  rfl

theorem performAll_cons (s : Session) (request : Request) (requests : List Request)
    : s.performAll (request :: requests)
        =
      (((s.perform request).1.performAll requests).1,
        (s.perform request).2 :: ((s.perform request).1.performAll requests).2) := rfl

namespace Keeps

variable {s : Session} {founders : List Nat} {parts : Nat → Handle} {views : Nat → Catalogue}

theorem start (evaluator : Evaluator)
    : Keeps (start evaluator) [0] (fun _ => empty.nextHandle) (founded evaluator) where
  handles_eq := rfl
  catalogue?_eq := by
    intro family h
    rw [List.mem_singleton] at h
    rw [h]
    apply catalogue?_create_nextHandle
  apart := by
    intro family h other hother hne
    rw [List.mem_singleton] at h hother
    rw [h, hother] at hne
    contradiction
  lt_length := by simp
  unused := by
    intro family h
    unfold founded
    rw [List.length_singleton] at h
    rw [if_neg (Nat.ne_of_gt h)]

theorem getElem?_handles (h : Keeps s founders parts views) (handle : Nat)
    : s.handles[handle]? = founders[handle]?.map parts := by
  rw [h.handles_eq, List.getElem?_map]

theorem perform_toHandle (h : Keeps s founders parts views) {handle family : Nat}
    (hfamily : founders[handle]? = some family) (request : Catalogue.Request)
    : s.perform (.toHandle handle request)
        =
      (s.store (parts family) ((views family).perform request).1,
        .answer ((views family).perform request).2) := by
  have hmem := List.mem_of_getElem? hfamily
  simp only [perform, h.getElem?_handles, hfamily, Option.map_some, h.catalogue?_eq family hmem]

theorem perform_clone (h : Keeps s founders parts views) {handle family : Nat}
    (hfamily : founders[handle]? = some family)
    : s.perform (.clone handle)
        =
      ({ s with handles := s.handles ++ [parts family] }, .handle founders.length) := by
  have hlength : s.handles.length = founders.length := by rw [h.handles_eq, List.length_map]
  simp only [perform, h.getElem?_handles, hfamily, Option.map_some, hlength]

theorem perform_create (h : Keeps s founders parts views)
    : s.perform .create = (s.create (.ofTracing false), .handle founders.length) := by
  have hlength : s.handles.length = founders.length := by rw [h.handles_eq, List.length_map]
  simp only [perform, hlength]

theorem perform_of_unknown (h : Keeps s founders parts views) {handle : Nat}
    (hunknown : founders[handle]? = none)
    : (∀ request, s.perform (.toHandle handle request) = (s, .noSuchHandle))
        ∧ s.perform (.clone handle) = (s, .noSuchHandle) := by
  have hhandle : s.handles[handle]? = none := by
    rw [h.getElem?_handles, hunknown, Option.map_none]
  simp [perform, hhandle]

theorem answer_eq (h : Keeps s founders parts views) (request : Request)
    : (s.perform request).2 = answerFrom founders views request := by
  cases request with
  | toHandle handle request =>
    cases hfamily : founders[handle]? with
    | none =>
      rw [(h.perform_of_unknown hfamily).1]
      simp only [answerFrom, hfamily]
    | some family =>
      rw [h.perform_toHandle hfamily]
      simp only [answerFrom, hfamily]
  | clone handle =>
    cases hfamily : founders[handle]? with
    | none =>
      have hle : founders.length ≤ handle := List.getElem?_eq_none_iff.mp hfamily
      rw [(h.perform_of_unknown hfamily).2]
      simp only [answerFrom, if_neg (Nat.not_lt_of_le hle)]
    | some family =>
      have hlt : handle < founders.length := (List.getElem?_eq_some_iff.mp hfamily).1
      rw [h.perform_clone hfamily]
      simp only [answerFrom, if_pos hlt]
  | create => rw [h.perform_create, answerFrom]

theorem toHandle (h : Keeps s founders parts views) {handle family : Nat}
    (hfamily : founders[handle]? = some family) (request : Catalogue.Request)
    : Keeps (s.store (parts family) ((views family).perform request).1) founders parts
        (advance founders views (.toHandle handle request)) := by
  have hmem := List.mem_of_getElem? hfamily
  have hothers : ∀ other, family ≠ other
      → advance founders views (.toHandle handle request) other = views other := by
    intro other hne
    apply advance_of_ne
    rw [hfamily]
    simpa using hne
  constructor
  . exact h.handles_eq
  . intro other hother
    by_cases heq : family = other
    . rw [← heq, advance_of_eq hfamily]
      apply catalogue?_store_self (h.catalogue?_eq family hmem)
      apply Catalogue.evaluator_perform
    . rw [hothers other heq, catalogue?_store_of_isApart (h.apart family hmem other hother heq)]
      exact h.catalogue?_eq other hother
  . exact h.apart
  . exact h.lt_length
  . intro other hother
    have hlt := h.lt_length family hmem
    rw [hothers other (by omega)]
    exact h.unused other hother

theorem clone (h : Keeps s founders parts views) {family : Nat} (hfamily : family ∈ founders)
    : Keeps { s with handles := s.handles ++ [parts family] } (founders ++ [family]) parts
        views := by
  have hmem : ∀ other ∈ founders ++ [family], other ∈ founders := by
    intro other hother
    rw [List.mem_append, List.mem_singleton] at hother
    cases hother with
    | inl hother => exact hother
    | inr heq => rwa [heq]
  constructor
  . simp [h.handles_eq]
  . intro other hother
    exact h.catalogue?_eq other (hmem other hother)
  . intro other hother another hanother
    exact h.apart other (hmem other hother) another (hmem another hanother)
  . intro other hother
    have := h.lt_length other (hmem other hother)
    simp
    omega
  . intro other hother
    apply h.unused
    simp at hother
    omega

theorem create (h : Keeps s founders parts views)
    : Keeps (s.create (.ofTracing false)) (founders ++ [founders.length])
        (fun family => if family = founders.length then s.nextHandle else parts family) views := by
  have hold : ∀ family ∈ founders,
      (if family = founders.length then s.nextHandle else parts family) = parts family := by
    intro family hfamily
    exact if_neg (Nat.ne_of_lt (h.lt_length family hfamily))
  constructor
  . have hmap := List.map_congr_left hold
    simp [Session.create, h.handles_eq, hmap]
  . intro family hfamily
    rw [List.mem_append, List.mem_singleton] at hfamily
    cases hfamily with
    | inl hfamily =>
      rw [hold family hfamily]
      exact catalogue?_create (h.catalogue?_eq family hfamily) _
    | inr heq =>
      rw [if_pos heq, h.unused family (Nat.le_of_eq heq.symm)]
      apply catalogue?_create_nextHandle
  . intro family hfamily other hother hne
    rw [List.mem_append, List.mem_singleton] at hfamily hother
    cases hfamily with
    | inl hfamily =>
      rw [hold family hfamily]
      cases hother with
      | inl hother =>
        rw [hold other hother]
        exact h.apart family hfamily other hother hne
      | inr heq =>
        rw [if_pos heq]
        exact isApart_nextHandle (h.catalogue?_eq family hfamily)
    | inr heq =>
      rw [if_pos heq]
      cases hother with
      | inl hother =>
        rw [hold other hother]
        exact (isApart_nextHandle (h.catalogue?_eq other hother)).symm
      | inr heq' => exact absurd (heq.trans heq'.symm) hne
  . intro family hfamily
    rw [List.length_append, List.length_singleton]
    rw [List.mem_append, List.mem_singleton] at hfamily
    cases hfamily with
    | inl hfamily => exact Nat.lt_succ_of_lt (h.lt_length family hfamily)
    | inr heq => exact Nat.lt_succ_of_le (Nat.le_of_eq heq)
  . intro family hfamily
    apply h.unused
    simp at hfamily
    omega

theorem perform (h : Keeps s founders parts views) (request : Request)
    : ∃ parts, Keeps (s.perform request).1 (join founders request) parts
        (advance founders views request) := by
  cases request with
  | toHandle handle request =>
    cases hfamily : founders[handle]? with
    | none =>
      rw [(h.perform_of_unknown hfamily).1]
      have hadvance : advance founders views (.toHandle handle request) = views := by
        funext family
        apply advance_of_ne
        simp [hfamily]
      rw [hadvance]
      exact ⟨parts, h⟩
    | some family =>
      rw [h.perform_toHandle hfamily]
      exact ⟨parts, h.toHandle hfamily request⟩
  | clone handle =>
    cases hfamily : founders[handle]? with
    | none =>
      rw [(h.perform_of_unknown hfamily).2, join, hfamily, Option.toList_none, List.append_nil]
      exact ⟨parts, h⟩
    | some family =>
      rw [h.perform_clone hfamily, join, hfamily]
      exact ⟨parts, h.clone (List.mem_of_getElem? hfamily)⟩
  | create =>
    rw [h.perform_create]
    exact ⟨_, h.create⟩

theorem performAll (h : Keeps s founders parts views) (requests : List Request)
    : ∃ parts, Keeps (s.performAll requests).1 (requests.foldl join founders) parts
        (fun family => ((views family).performAll (received founders family requests)).1) := by
  induction requests generalizing s founders parts views with
  | nil => exact ⟨parts, h⟩
  | cons request requests ih =>
    have ⟨parts, hnext⟩ := h.perform request
    have ⟨parts, hlast⟩ := ih hnext
    refine ⟨parts, ?_⟩
    simp only [received, Catalogue.performAll_append]
    exact hlast

theorem perform_eq_of_isRedirected (h : Keeps s founders parts views) {request other : Request}
    (hredirected : request.IsRedirected founders other) : s.perform request = s.perform other := by
  cases request with
  | toHandle handle request =>
    cases other with
    | toHandle handle' request' =>
      rcases hredirected with ⟨hfamily, rfl⟩
      simp only [Session.perform, h.getElem?_handles, hfamily]
    | _ => contradiction
  | clone handle =>
    cases other with
    | clone handle' =>
      have hfamily : founders[handle]? = founders[handle']? := hredirected
      simp only [Session.perform, h.getElem?_handles, hfamily]
    | _ => contradiction
  | create =>
    cases other with
    | create => rfl
    | _ => contradiction

theorem performAll_eq_of_areRedirected (h : Keeps s founders parts views)
    {requests others : List Request} (hredirected : AreRedirected founders requests others)
    : s.performAll requests = s.performAll others := by
  induction requests generalizing s founders parts views others with
  | nil =>
    cases others with
    | nil => rfl
    | cons other others => contradiction
  | cons request requests ih =>
    cases others with
    | nil => contradiction
    | cons other others =>
      have ⟨hfirst, hrest⟩ := hredirected
      have hperform := h.perform_eq_of_isRedirected hfirst
      have ⟨_, hnext⟩ := h.perform request
      have hlast := ih hnext hrest
      rw [performAll_cons, performAll_cons, ← hperform, hlast]

end Keeps

theorem keeps_start_performAll (evaluator : Evaluator) (requests : List Request)
    : ∃ parts, Keeps ((start evaluator).performAll requests).1 (foundersAfter requests) parts
        (alone evaluator · requests) :=
  (Keeps.start evaluator).performAll requests

theorem getElem?_performAll (s : Session) (requests : List Request) (position : Nat)
    : (s.performAll requests).2[position]?
        =
      requests[position]?.map fun request =>
        ((s.performAll (requests.take position)).1.perform request).2 := by
  induction requests generalizing s position with
  | nil => rfl
  | cons request requests ih =>
    cases position with
    | zero => rfl
    | succ position => exact ih (s.perform request).1 position

theorem answers_of_families (evaluator : Evaluator)
    : (∀ requests position,
        ((start evaluator).performAll requests).2[position]?
          =
        requests[position]?.map
          (answerFrom (foundersAfter (requests.take position))
            (alone evaluator · (requests.take position))))
        ∧
      (∀ earlier other handle handle' family family',
        (foundersAfter earlier)[handle]? = some family
          → (foundersAfter other)[handle']? = some family'
          → founded evaluator family = founded evaluator family'
          → received [0] family earlier = received [0] family' other
          → ∀ request,
              (((start evaluator).performAll earlier).1.perform (.toHandle handle request)).2
                =
              (((start evaluator).performAll other).1.perform (.toHandle handle' request)).2)
        ∧
      ∀ requests redirected, AreRedirected [0] requests redirected
        → (start evaluator).performAll redirected = (start evaluator).performAll requests := by
  refine ⟨?_, ?_, ?_⟩
  . intro requests position
    have ⟨_, h⟩ := keeps_start_performAll evaluator (requests.take position)
    rw [getElem?_performAll]
    congr
    funext request
    exact h.answer_eq request
  . intro earlier other handle handle' family family' hfamily hfamily' hfounded hreceived request
    have ⟨_, h⟩ := keeps_start_performAll evaluator earlier
    have ⟨_, h'⟩ := keeps_start_performAll evaluator other
    have halone : alone evaluator family earlier = alone evaluator family' other := by
      unfold alone
      rw [hfounded, hreceived]
    rw [h.perform_toHandle hfamily, h'.perform_toHandle hfamily', halone]
  . intro requests redirected h
    exact ((Keeps.start evaluator).performAll_eq_of_areRedirected h).symm

theorem answers_of_families_interleaved
    : let start := start (.ofTracing true)
      let a := Field.plain "a" "" ""
      let b := Field.plain "b" "" ""
      let earlier := [Request.clone 0, .toHandle 1 (.load a)]
      let other := [.create, .toHandle 1 (.load b), .clone 0, .toHandle 0 (.load a), .clone 1]
      let redirected := [Request.clone 0, .toHandle 0 (.load a)]
      (foundersAfter earlier)[0]? = some 0
        ∧ (foundersAfter other)[2]? = some 0
        ∧ received [0] 0 earlier = [.load a]
        ∧ received [0] 0 other = [.load a]
        ∧ ((start.performAll earlier).1.perform (.toHandle 0 .revisions)).2
            = ((start.performAll other).1.perform (.toHandle 2 .revisions)).2
        ∧ AreRedirected [0] earlier redirected
        ∧ start.performAll redirected = start.performAll earlier := by
  intro start a b earlier other redirected
  have ⟨_, hinterleaved, hredirected⟩ := answers_of_families (.ofTracing true)
  have h : AreRedirected [0] earlier redirected := ⟨rfl, ⟨rfl, rfl⟩, trivial⟩
  refine ⟨rfl, rfl, rfl, rfl, ?_, h, hredirected earlier redirected h⟩
  exact hinterleaved earlier other 0 2 0 0 rfl rfl rfl rfl .revisions

end Session

end FormLogic
