import Mathlib
import Segue.Url.Address

/-!
# Where frames are sent

The path of a web address always begins with a slash, and a relative path takes the place of its
last segment. So the endpoint of a base lies below the whole path of the base exactly if that path
ends in a slash.
-/

namespace Segue.Url

deriving instance DecidableEq for Location
deriving instance DecidableEq for Url

/-! ## Paths without their last segment -/

variable {path : List Char}

theorem dropSegment_append_lastSegment {f : Family} (hf : f ≠ .file) (path : List Char) :
    dropSegment f path ++ lastSegment path = path := by
  have hsuffix : lastSegment path <:+ path := by
    rw [lastSegment, ← List.reverse_prefix, List.reverse_reverse]
    exact List.takeWhile_prefix _
  rw [dropSegment, if_neg (by simp [hf])]
  obtain ⟨front, hfront⟩ := hsuffix
  conv_lhs => rw [← hfront]
  have hlast : lastSegment (front ++ lastSegment path) = lastSegment path := by rw [hfront]
  rw [hlast, List.length_append, Nat.add_sub_cancel, List.take_left, hfront]

theorem not_mem_lastSegment (path : List Char) : '/' ∉ lastSegment path := by
  intro h
  have := List.mem_takeWhile_imp (List.mem_reverse.mp h)
  simp at this

theorem lastSegment_eq_nil_iff : lastSegment path = [] ↔ path = [] ∨ endsInSlash path = true := by
  rw [lastSegment, List.reverse_eq_nil_iff, endsInSlash, ← List.head?_reverse]
  cases h : path.reverse with
  | nil => simp [List.reverse_eq_nil_iff.mp h]
  | cons c cs =>
      have hne : path ≠ [] := by
        rintro rfl
        cases h
      by_cases hc : c = '/' <;> simp [hc, hne]

theorem head?_dropSegment {f : Family} (hf : f ≠ .file) (h : path.head? = some '/') :
    (dropSegment f path).head? = some '/' := by
  have hparts := dropSegment_append_lastSegment hf path
  cases hfront : dropSegment f path with
  | nil =>
      rw [hfront, List.nil_append] at hparts
      rw [← hparts] at h
      exact absurd (List.mem_of_head? h) (not_mem_lastSegment path)
  | cons c cs =>
      rw [hfront, List.cons_append] at hparts
      rw [← hparts] at h
      exact h

theorem head?_goUp {f : Family} (hf : f ≠ .file) (h : path.head? = some '/') :
    (goUp f path).head? = some '/' := by
  rw [goUp]
  refine head?_dropSegment hf ?_
  split
  · rename_i hloose
    rw [isSlashLoose] at hloose
    cases path with
    | nil => cases h
    | cons c cs =>
        cases cs with
        | nil => simp at hloose
        | cons c' cs => exact h
  · exact h

/-! ## Paths that are read -/

namespace Reading

variable {r : Reading}

theorem foldl_push {f : Family} (hf : f ≠ .file) (r : Reading) (cs : List Char) :
    cs.foldl (push f) r = { r with path := r.path ++ encode pathSet cs } := by
  induction cs generalizing r with
  | nil => simp [encode]
  | cons c cs ih =>
      rw [List.foldl_cons, ih, push, if_neg (by simp [hf]), encode, encode, List.flatMap_cons,
        List.append_assoc]

/-- The path begins with a slash, and so does what precedes its last segment. -/
structure Rooted (r : Reading) : Prop where
  head : r.path.head? = some '/'
  start : 0 < r.start

theorem rooted_after {onDrive : Bool} (h : path.head? = some '/') :
    Rooted (.after path onDrive) := by
  refine ⟨h, List.length_pos_iff.mpr ?_⟩
  rintro rfl
  cases h

theorem Rooted.foldl_push {f : Family} (hf : f ≠ .file) (h : r.Rooted) (cs : List Char) :
    (cs.foldl (push f) r).Rooted := by
  rw [Reading.foldl_push hf]
  exact ⟨by rw [List.head?_append, h.head]; rfl, h.start⟩

theorem Rooted.close {f : Family} (hf : f ≠ .file) (h : r.Rooted) (slash : Bool) :
    (r.close f slash).Rooted := by
  have hbefore : (r.path.take r.start).head? = some '/' := by
    rw [List.head?_take, if_neg h.start.ne', h.head]
  have happend : ∀ {p : List Char} (tail : List Char), p.head? = some '/' →
      (p ++ tail).head? = some '/' := by
    intro p tail hp
    rw [List.head?_append, hp]
    rfl
  rw [Reading.close]
  dsimp only
  split
  · refine rooted_after ?_
    split
    · exact happend _ (head?_goUp hf hbefore)
    · exact head?_goUp hf hbefore
  · split
    · refine rooted_after ?_
      split
      · exact hbefore
      · exact happend _ hbefore
    · rw [if_neg (by simp [hf])]
      exact rooted_after (happend _ h.head)

theorem Rooted.addSegments {f : Family} (hf : f ≠ .file) (h : r.Rooted)
    (segments : List (List Char)) : (r.addSegments f segments).Rooted := by
  induction segments generalizing r with
  | nil => exact h
  | cons raw rest ih => exact ih ((h.foldl_push hf raw).close hf _)

end Reading

theorem path_addPath {f : Family} (hf : f ≠ .file) (path text : List Char) :
    (addPath f path text).path =
      ((Reading.after path false).addSegments f (Text.splitChars (isSlash f) text)).path := by
  rw [addPath, trimPath, if_neg hf]

theorem head?_addPath {f : Family} (hf : f ≠ .file) (h : path.head? = some '/')
    (text : List Char) : (addPath f path text).path.head? = some '/' := by
  rw [path_addPath hf]
  exact ((Reading.rooted_after h).addSegments hf _).head

@[simp] theorem head?_readPath (text : List Char) : (readPath .web text).path.head? = some '/' := by
  cases text with
  | nil => exact head?_addPath (by decide) rfl []
  | cons c cs => exact head?_addPath (by decide) rfl _

/-! ## Addresses that are read -/

theorem location_readAuthority? {scheme cs : List Char} {u : Url}
    (h : readAuthority? scheme cs = some u) : u.scheme = scheme ∧
      ∃ text, u.location = .path (readPath (familyOf scheme) text).path := by
  rw [readAuthority?] at h
  simp only [Option.bind_eq_bind, Option.bind_none, Option.bind_some] at h
  -- Every way that does not fail ends in the same record.
  split at h
  · split at h
    · cases h
    · split at h
      · obtain ⟨read, -, h⟩ := Option.bind_eq_some_iff.mp h
        cases h
        exact ⟨rfl, _, rfl⟩
      · cases h
        exact ⟨rfl, _, rfl⟩
  · obtain ⟨host, -, h⟩ := Option.bind_eq_some_iff.mp h
    split at h
    · obtain ⟨read, -, h⟩ := Option.bind_eq_some_iff.mp h
      cases h
      exact ⟨rfl, _, rfl⟩
    · cases h
      exact ⟨rfl, _, rfl⟩

theorem scheme_readFile? {cs : List Char} {u : Url} (h : readFile? cs = some u) :
    u.scheme = "file".toList := by
  unfold readFile? at h
  simp only [Option.bind_eq_bind] at h
  split at h
  · cases h
    rfl
  · split at h
    · cases h
      rfl
    · split at h
      · split at h
        · split at h
          · cases h
            rfl
          · obtain ⟨host, -, h⟩ := Option.bind_eq_some_iff.mp h
            split at h <;> cases h <;> rfl
        · cases h
          rfl
      · cases h
        rfl

theorem scheme_readOther? {scheme cs : List Char} {u : Url}
    (h : readOther? scheme cs = some u) : u.scheme = scheme := by
  revert h
  fun_cases readOther? scheme cs with
  | case1 rest => exact fun h => (location_readAuthority? h).1
  | case2 rest =>
    intro h
    cases h
    rfl
  | case3 =>
    intro h
    cases h
    rfl

/-- An address for the web has a path that begins with a slash. -/
theorem location_parse?_web {s : String} {u : Url} (h : parse? s = some u)
    (hweb : familyOf u.scheme = .web) :
    ∃ path, u.location = .path path ∧ path.head? = some '/' := by
  rw [parse?] at h
  simp only at h
  split at h
  · split at h
    · cases h
    · split at h
      · rw [scheme_readFile? h] at hweb
        cases hweb
      · rename_i hscheme
        obtain ⟨-, text, htext⟩ := location_readAuthority? h
        exact ⟨_, htext, hscheme ▸ head?_readPath text⟩
      · rename_i hscheme
        rw [scheme_readOther? h, hscheme] at hweb
        cases hweb
  · cases h

example : familyOf "http".toList = .web ∧ familyOf "https".toList = .web := by decide +kernel

/-! ## Relative paths -/

/-- A segment that stands for itself behind any path. -/
structure IsPlain (segment : List Char) : Prop where
  encoded : encode pathSet segment = segment
  up : isUpwards segment = false
  here : isHere segment = false

theorem Reading.close_after {f : Family} (hf : f ≠ .file) {segment : List Char}
    (h : IsPlain segment) (path : List Char) (slash : Bool) :
    (segment.foldl (push f) (after path false)).close f slash =
      after (path ++ segment ++ if slash then ['/'] else []) false := by
  rw [foldl_push hf, h.encoded, close]
  simp [after, h.up, h.here, hf]

/-- Segments that stand for themselves follow a path as they are. -/
theorem path_addSegments_plain {f : Family} (hf : f ≠ .file) {segments : List (List Char)}
    (h : ∀ s ∈ segments, IsPlain s) (path : List Char) :
    ((Reading.after path false).addSegments f segments).path =
      path ++ ['/'].intercalate segments := by
  induction segments generalizing path with
  | nil => simp [Reading.addSegments, Reading.after, List.intercalate]
  | cons s rest ih =>
      rw [Reading.addSegments, Reading.close_after hf (h s List.mem_cons_self),
        ih fun s hs => h s (List.mem_cons_of_mem _ hs)]
      cases rest <;> simp [List.intercalate]

def uploadPath : List Char := "upload/image".toList

theorem path_addPath_uploadPath {f : Family} (hf : f ≠ .file) (path : List Char) :
    (addPath f path uploadPath).path = path ++ uploadPath := by
  have hsplit : Text.splitChars (isSlash f) uploadPath = ["upload".toList, "image".toList] := by
    cases f <;> decide +kernel
  have hplain : ∀ s ∈ ["upload".toList, "image".toList], IsPlain s := by
    simp only [List.forall_mem_cons, List.not_mem_nil, false_implies, implies_true, and_true]
    exact ⟨⟨by decide +kernel, by decide +kernel, by decide +kernel⟩,
      ⟨by decide +kernel, by decide +kernel, by decide +kernel⟩⟩
  have hjoin : ['/'].intercalate ["upload".toList, "image".toList] = uploadPath := by
    decide +kernel
  rw [path_addPath hf, hsplit, path_addSegments_plain hf hplain, hjoin]

/-! ## Endpoints -/

/-- A path without the slash at its end. -/
def bare (path : List Char) : List Char := if endsInSlash path then path.dropLast else path

/-- The second address is that of `upload/image` below the whole path of the first. -/
structure Extends (u e : Url) : Prop where
  scheme : e.scheme = u.scheme
  host : e.host = u.host
  port : e.port = u.port
  path : ∃ path, u.location = .path path ∧ e.location = .path (bare path ++ '/' :: uploadPath)

theorem join?_web {u : Url} {path : List Char} (hweb : familyOf u.scheme = .web)
    (hpath : u.location = .path path) (hroot : path.head? = some '/') (relative : String) :
    u.join? relative = some { u with
      location := .path (addPath .web (dropSegment .web path) relative.toList).path
      query := none
      fragment := none } := by
  have hstem : (dropSegment .web path).isEmpty = false := by
    have := head?_dropSegment (f := .web) (by decide) hroot
    rw [List.isEmpty_eq_false_iff]
    rintro hnil
    rw [hnil] at this
    cases this
  simp only [join?, hpath, hweb, hstem, Bool.false_eq_true, if_false]

theorem bare_append_slash (h : endsInSlash path = true) : bare path ++ ['/'] = path := by
  rw [bare, if_pos h]
  rw [endsInSlash, decide_eq_true_eq] at h
  exact List.dropLast_append_getLast? '/' h

theorem dropSegment_eq_bare_iff {f : Family} (hf : f ≠ .file) (path : List Char) :
    dropSegment f path = bare path ++ ['/'] ↔ endsInSlash path = true := by
  have hparts := dropSegment_append_lastSegment hf path
  constructor
  · intro h
    by_contra hloose
    rw [bare, if_neg hloose] at h
    have := congrArg List.length hparts
    rw [h, List.length_append, List.length_append, List.length_singleton] at this
    omega
  · intro h
    rw [lastSegment_eq_nil_iff.mpr (.inr h), List.append_nil] at hparts
    rw [hparts, bare_append_slash h]

/-- Every address for the web is accepted, with `upload/image` in the place of the last segment of
its path; that is below the whole path exactly if the path ends in a slash. -/
theorem uploadEndpoint_web {base : String} {u : Url} (h : parse? base = some u)
    (hweb : familyOf u.scheme = .web) :
    ∃ path e, u.location = .path path ∧ path.head? = some '/' ∧
      uploadEndpoint base = .ok e ∧
      e = { u with
        location := .path (dropSegment .web path ++ uploadPath)
        query := none
        fragment := none } ∧
      (Extends u e ↔ endsInSlash path = true) := by
  obtain ⟨path, hpath, hroot⟩ := location_parse?_web h hweb
  refine ⟨path, _, hpath, hroot, ?_, rfl, ?_⟩
  · rw [uploadEndpoint]
    simp only [h, join?_web hweb hpath hroot]
    rw [← path_addPath_uploadPath (f := .web) (by decide)]
    rfl
  · rw [← dropSegment_eq_bare_iff (f := .web) (by decide)]
    constructor
    · rintro ⟨-, -, -, path', hpath', hbelow⟩
      obtain rfl : path = path' := Location.path.inj (hpath.symm.trans hpath')
      have := Location.path.inj hbelow
      rw [List.append_cons] at this
      exact List.append_cancel_right this
    · intro h
      refine ⟨rfl, rfl, rfl, path, hpath, ?_⟩
      rw [List.append_cons, ← h]

def localServer (path : String) : Url :=
  ⟨"http".toList, [], some "127.0.0.1".toList, some 8188, .path path.toList, none, none⟩

theorem uploadEndpoint_below :
    parse? "http://127.0.0.1:8188/comfy/" = some (localServer "/comfy/") ∧
      ∃ e, uploadEndpoint "http://127.0.0.1:8188/comfy/" = .ok e ∧
        Extends (localServer "/comfy/") e := by
  have hread : parse? "http://127.0.0.1:8188/comfy/" = some (localServer "/comfy/") := by
    decide +kernel
  refine ⟨hread, ?_⟩
  obtain ⟨path, e, hpath, -, hend, -, hbelow⟩ := uploadEndpoint_web hread (by decide +kernel)
  obtain rfl : "/comfy/".toList = path := Location.path.inj hpath
  exact ⟨e, hend, hbelow.mpr (by decide +kernel)⟩

/-- Without the slash the last segment of the path is lost. -/
theorem uploadEndpoint_astray :
    parse? "http://127.0.0.1:8188/comfy" = some (localServer "/comfy") ∧
      ∃ e, uploadEndpoint "http://127.0.0.1:8188/comfy" = .ok e ∧
        e.text = "http://127.0.0.1:8188/upload/image" ∧ ¬Extends (localServer "/comfy") e := by
  refine ⟨by decide +kernel, localServer "/upload/image", by decide +kernel, by decide +kernel, ?_⟩
  rintro ⟨-, -, -, path, hpath, hbelow⟩
  obtain rfl : "/comfy".toList = path := Location.path.inj hpath
  exact absurd (Location.path.inj hbelow) (by decide +kernel)

end Segue.Url
