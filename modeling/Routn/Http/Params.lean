import Mathlib.Data.List.TakeWhile
import Routn.Http.HttpRequest
import Routn.Util.UrlCodec

/-!
# The parameters and the cookies of a request

`PARSE_PARAM` looks for a `=` and then for the separator, from where the last search stopped.  So a
piece of the text without a `=` is not a segment of its own: it is read with the next one, as part
of its key.  `glue` says this on the segments, and where no such piece stands in front of a segment
with a `=` the loop reads the segments themselves.
-/

namespace Routn
namespace Http

/-! ## The maps -/

/-- `MapType`, in the order of the insertions. -/
abbrev ParamMap := List (List UInt8 × List UInt8)

/-- `c_str()` as the C functions see it. -/
def cStr (s : List UInt8) : List UInt8 := s.takeWhile (· ≠ 0)

/-- Neither of two keys is `CaseInsensitiveLess` than the other. -/
def sameKey (a b : List UInt8) : Bool := strcasecmpEq (cStr a) (cStr b)

namespace ParamMap

/-- `m.find(key)`. -/
def find (m : ParamMap) (key : List UInt8) : Option (List UInt8 × List UInt8) :=
  m.find? fun entry => sameKey entry.1 key

/-- `m.insert(entry)`, which leaves an entry that is there as it is. -/
def insert (m : ParamMap) (entry : List UInt8 × List UInt8) : ParamMap :=
  if (m.find entry.1).isSome then m else m ++ [entry]

end ParamMap

/-! ## `PARSE_PARAM` -/

/-- The blanks of `Trim`. -/
def isBlank (c : UInt8) : Bool := c ∈ [32, 9, 13, 10]

def Trim (str : List UInt8) : List UInt8 :=
  ((str.dropWhile isBlank).reverse.dropWhile isBlank).reverse

section

variable (flag : UInt8) (trim : List UInt8 → List UInt8)

/-- The loop on what is left of the text, with a bound on the number of its turns.  The search for
the separator starts at the `=`, which is no separator. -/
def paramLoop : Nat → List UInt8 → ParamMap → ParamMap
  | 0, _, m => m
  | bound + 1, str, m =>
      match str.span (· ≠ 61) with
      | (_, []) => m
      | (key, _ :: rest) =>
          match rest.span (· ≠ flag) with
          | (value, []) => m.insert (trim key, Util.UrlDecode true value)
          | (value, _ :: rest') =>
              paramLoop bound rest' (m.insert (trim key, Util.UrlDecode true value))

def parseParam (str : List UInt8) (m : ParamMap) : ParamMap :=
  paramLoop flag trim (str.length + 1) str m

end

/-! ## The request -/

/-- `strcasestr(a, b) != nullptr`. -/
def strcasestr (a b : List UInt8) : Bool :=
  (cStr a).tails.any fun t => strcasecmpEq (t.take b.length) b

/-- A request with the members that are filled on demand. -/
structure ParamRequest extends HttpRequest where
  params : ParamMap := []
  cookies : ParamMap := []
  parserParamFlag : UInt8 := 0

namespace ParamRequest

def contentType (r : ParamRequest) : List UInt8 :=
  r.getHeader (chars ['c', 'o', 'n', 't', 'e', 'n', 't', '-', 't', 'y', 'p', 'e'])

def isForm (r : ParamRequest) : Bool :=
  strcasestr r.contentType (chars ['a', 'p', 'p', 'l', 'i', 'c', 'a', 't', 'i', 'o', 'n', '/',
    'x', '-', 'w', 'w', 'w', '-', 'f', 'o', 'r', 'm', '-', 'u', 'r', 'l', 'e', 'n', 'c', 'o', 'd',
    'e', 'd'])

def cookie (r : ParamRequest) : List UInt8 :=
  r.getHeader (chars ['c', 'o', 'o', 'k', 'i', 'e'])

def initQueryParam (r : ParamRequest) : ParamRequest :=
  if r.parserParamFlag &&& 0x1 ≠ 0 then r
  else { r with
    params := parseParam 38 id r.query r.params
    parserParamFlag := r.parserParamFlag ||| 0x1 }

def initBodyParam (r : ParamRequest) : ParamRequest :=
  if r.parserParamFlag &&& 0x2 ≠ 0 then r
  else if !r.isForm then { r with parserParamFlag := r.parserParamFlag ||| 0x2 }
  else { r with
    params := parseParam 38 id r.body r.params
    parserParamFlag := r.parserParamFlag ||| 0x2 }

def initCookies (r : ParamRequest) : ParamRequest :=
  if r.parserParamFlag &&& 0x4 ≠ 0 then r
  else if r.cookie.isEmpty then { r with parserParamFlag := r.parserParamFlag ||| 0x4 }
  else { r with
    cookies := parseParam 59 Trim r.cookie r.cookies
    parserParamFlag := r.parserParamFlag ||| 0x4 }

def initParam (r : ParamRequest) : ParamRequest := r.initQueryParam.initBodyParam.initCookies

end ParamRequest

/-! ## The meaning by segments -/

section

variable (flag : UInt8) (trim : List UInt8 → List UInt8)

/-- The pair of a segment: the text in front of its first `=` and the decoded text behind it. -/
def segmentPair (segment : List UInt8) : Option (List UInt8 × List UInt8) :=
  match segment.span (· ≠ 61) with
  | (_, []) => none
  | (key, _ :: value) => some (trim key, Util.UrlDecode true value)

/-- The pairs of a text, in the order of its segments. -/
def segmentPairs (str : List UInt8) : List (List UInt8 × List UInt8) :=
  (str.splitOn flag).filterMap (segmentPair trim)

/-- No segment without a `=` stands in front of one that has it. -/
def BareLast (str : List UInt8) : Prop :=
  (str.splitOn flag).Pairwise fun s t => 61 ∈ t → 61 ∈ s

/-- The segments as the loop reads them: those without a `=` are put in front of the next one. -/
def glue : List UInt8 → List (List UInt8) → List (List UInt8)
  | _, [] => []
  | carry, s :: segments =>
      if 61 ∈ s then (carry ++ s) :: glue [] segments else glue (carry ++ s ++ [flag]) segments

end

/-! ## The loop reads the glued segments -/

section

variable {flag : UInt8} {trim : List UInt8 → List UInt8}

theorem span_of_not_mem {a : UInt8} {s : List UInt8} (h : a ∉ s) :
    s.span (· ≠ a) = (s, []) := by
  have hall : ∀ x ∈ s, decide (x ≠ a) = true := fun x hx =>
    decide_eq_true fun heq => h (heq ▸ hx)
  rw [List.span_eq_takeWhile_dropWhile, List.takeWhile_eq_self_iff.mpr hall,
    List.dropWhile_eq_nil_iff.mpr hall]

theorem span_of_append {a : UInt8} {s : List UInt8} (h : a ∉ s) (rest : List UInt8) :
    (s ++ a :: rest).span (· ≠ a) = (s, a :: rest) := by
  have hall : ∀ x ∈ s, decide (x ≠ a) = true := fun x hx =>
    decide_eq_true fun heq => h (heq ▸ hx)
  rw [List.span_eq_takeWhile_dropWhile, List.takeWhile_append_of_pos hall,
    List.dropWhile_append_of_pos hall]
  simp

/-- A text has no `=`, or it is cut in front of the first one. -/
theorem exists_cut (a : UInt8) (s : List UInt8) :
    a ∉ s ∨ ∃ before rest, a ∉ before ∧ s = before ++ a :: rest := by
  by_cases hmem : a ∈ s
  · obtain ⟨before, rest, heq, hbefore⟩ := List.eq_append_cons_of_mem hmem
    exact Or.inr ⟨before, rest, hbefore, heq⟩
  · exact Or.inl hmem

/-- What stands in front of a text without a `=` joins what is carried. -/
theorem glue_splitOn (flag : UInt8) {key : List UInt8} (hkey : 61 ∉ key)
    (carry rest : List UInt8) :
    glue flag carry ((key ++ rest).splitOn flag) =
      glue flag (carry ++ key) (rest.splitOn flag) := by
  induction key generalizing carry with
  | nil => simp
  | cons x key ih =>
      have hx := List.ne_of_not_mem_cons hkey
      have hkey := List.not_mem_of_not_mem_cons hkey
      have hnext := ih hkey (carry ++ [x])
      rw [List.append_assoc, List.singleton_append] at hnext
      rw [← hnext, List.cons_append, List.splitOn_cons_eq_if_modifyHead]
      by_cases hsep : x = flag
      · simp [hsep, glue]
      · cases hsplit : (key ++ rest).splitOn flag with
        | nil => exact absurd hsplit (List.splitOn_ne_nil flag _)
        | cons s segments => simp [hsep, glue, hx]

theorem segmentPair_append {key : List UInt8} (hkey : 61 ∉ key) (value : List UInt8) :
    segmentPair trim (key ++ 61 :: value) = some (trim key, Util.UrlDecode true value) := by
  rw [segmentPair, span_of_append hkey]

theorem segmentPair_bare {segment : List UInt8} (h : 61 ∉ segment) :
    segmentPair trim segment = none := by
  rw [segmentPair, span_of_not_mem h]

/-- One turn of the loop takes the first of the glued segments. -/
theorem glue_first (hflag : flag ≠ 61) {key value : List UInt8} (hkey : 61 ∉ key)
    (hvalue : flag ∉ value) :
    glue flag [] ((key ++ 61 :: value).splitOn flag) = [key ++ 61 :: value] ∧
    ∀ rest, glue flag [] ((key ++ 61 :: (value ++ flag :: rest)).splitOn flag) =
      (key ++ 61 :: value) :: glue flag [] (rest.splitOn flag) := by
  have hsegment : flag ∉ 61 :: value := List.not_mem_cons_of_ne_of_not_mem hflag hvalue
  constructor
  · rw [glue_splitOn flag hkey, List.splitOn_eq_singleton hsegment]
    simp [glue]
  · intro rest
    rw [glue_splitOn flag hkey, ← List.cons_append,
      List.splitOn_append_cons_self_of_not_mem hsegment]
    simp [glue]

theorem paramLoop_eq (hflag : flag ≠ 61) {bound : Nat} {str : List UInt8}
    (hbound : str.length < bound) (m : ParamMap) :
    paramLoop flag trim bound str m =
      ((glue flag [] (str.splitOn flag)).filterMap (segmentPair trim)).foldl
        ParamMap.insert m := by
  induction bound generalizing str m with
  | zero => simp at hbound
  | succ bound ih =>
      rcases exists_cut 61 str with hbare | ⟨key, rest, hkey, rfl⟩
      · have hglue := glue_splitOn flag hbare [] []
        rw [List.append_nil] at hglue
        rw [paramLoop, span_of_not_mem hbare, hglue]
        simp [glue]
      · rw [paramLoop, span_of_append hkey]
        rcases exists_cut flag rest with hlast | ⟨value, rest', hvalue, rfl⟩
        · rw [(glue_first hflag hkey hlast).1]
          simp only [span_of_not_mem hlast, List.filterMap_cons, segmentPair_append hkey]
          rfl
        · have hlength : rest'.length < bound := by
            simp only [List.length_append, List.length_cons] at hbound
            omega
          rw [(glue_first hflag hkey hvalue).2]
          simp only [span_of_append hvalue, List.filterMap_cons, segmentPair_append hkey,
            List.foldl_cons]
          exact ih hlength _

/-- Without a segment that spoils the next one, nothing is glued. -/
theorem filterMap_glue {segments : List (List UInt8)}
    (h : segments.Pairwise fun s t => 61 ∈ t → 61 ∈ s) (carry : List UInt8)
    (hcarry : (∃ s ∈ segments, 61 ∈ s) → carry = []) :
    (glue flag carry segments).filterMap (segmentPair trim) =
      segments.filterMap (segmentPair trim) := by
  induction segments generalizing carry with
  | nil => rfl
  | cons s segments ih =>
      obtain ⟨hfirst, hrest⟩ := List.pairwise_cons.mp h
      by_cases hs : 61 ∈ s
      · have hnil := hcarry ⟨s, List.mem_cons_self, hs⟩
        rw [glue, if_pos hs, hnil, List.nil_append, List.filterMap_cons, List.filterMap_cons,
          ih hrest [] fun _ => rfl]
      · have hnone : ¬ ∃ t ∈ segments, 61 ∈ t := fun ⟨t, ht, htmem⟩ => hs (hfirst t ht htmem)
        rw [glue, if_neg hs, List.filterMap_cons, segmentPair_bare hs,
          ih hrest _ fun hsome => absurd hsome hnone]

/-! ## The map holds the first occurrences -/

theorem sameKey_trans {a b c : List UInt8} (hab : sameKey a b = true) :
    sameKey a c = sameKey b c := by
  rw [sameKey, strcasecmpEq, beq_iff_eq] at hab
  rw [sameKey, sameKey, strcasecmpEq, strcasecmpEq, hab]

theorem find_append (m m' : ParamMap) (key : List UInt8) :
    ParamMap.find (m ++ m') key = (m.find key).or (m'.find key) :=
  List.find?_append

theorem find_insert (m : ParamMap) (entry : List UInt8 × List UInt8) (key : List UInt8) :
    (m.insert entry).find key = ParamMap.find (m ++ [entry]) key := by
  rw [ParamMap.insert]
  split
  · rename_i hthere
    rw [find_append, ParamMap.find, ParamMap.find]
    by_cases hkey : sameKey entry.1 key = true
    · have hm : (m.find? fun e => sameKey e.1 key).isSome := by
        obtain ⟨e, he, hsame⟩ := List.find?_isSome.mp hthere
        exact List.find?_isSome.mpr ⟨e, he, (sameKey_trans hsame).trans hkey⟩
      obtain ⟨e, he⟩ := Option.isSome_iff_exists.mp hm
      rw [he, Option.some_or]
    · simp [hkey]
  · rfl

theorem find_foldl_insert (entries : List (List UInt8 × List UInt8)) (m : ParamMap)
    (key : List UInt8) :
    (entries.foldl ParamMap.insert m).find key = ParamMap.find (m ++ entries) key := by
  induction entries generalizing m with
  | nil => simp
  | cons entry entries ih =>
      rw [List.foldl_cons, ih, find_append, find_insert, ← find_append, List.append_assoc,
        List.singleton_append]

theorem find_parseParam (hflag : flag ≠ 61) {str : List UInt8} (hbare : BareLast flag str)
    (m : ParamMap) (key : List UInt8) :
    (parseParam flag trim str m).find key =
      ParamMap.find (m ++ segmentPairs flag trim str) key := by
  rw [parseParam, paramLoop_eq hflag (Nat.lt_succ_self _), find_foldl_insert,
    filterMap_glue hbare [] fun _ => rfl]
  rfl

end

namespace ParamRequest

variable {r : ParamRequest}

theorem find_initQueryParam (hflag : r.parserParamFlag = 0) (hbare : BareLast 38 r.query)
    (key : List UInt8) :
    r.initQueryParam.params.find key =
      ParamMap.find (r.params ++ segmentPairs 38 id r.query) key := by
  rw [initQueryParam, if_neg (by simp [hflag])]
  exact find_parseParam (by decide) hbare r.params key

theorem find_initBodyParam (hflag : r.parserParamFlag &&& 0x2 = 0)
    (hbare : r.isForm = true → BareLast 38 r.body) (key : List UInt8) :
    r.initBodyParam.params.find key =
      ParamMap.find (r.params ++ if r.isForm then segmentPairs 38 id r.body else []) key := by
  rw [initBodyParam, if_neg (by simp [hflag])]
  cases hform : r.isForm with
  | false => simp
  | true => simpa using find_parseParam (by decide) (hbare hform) r.params key

theorem find_initCookies (hflag : r.parserParamFlag &&& 0x4 = 0) (hbare : BareLast 59 r.cookie)
    (key : List UInt8) :
    r.initCookies.cookies.find key =
      ParamMap.find (r.cookies ++ segmentPairs 59 Trim r.cookie) key := by
  rw [initCookies, if_neg (by simp [hflag])]
  by_cases hempty : r.cookie = []
  · have hnone : segmentPair Trim [] = none := segmentPair_bare List.not_mem_nil
    simp [hempty, segmentPairs, hnone]
  · simpa [hempty] using find_parseParam (by decide) hbare r.cookies key

/-- Reading the parameters changes neither the head nor the body. -/
theorem initQueryParam_toHttpRequest (r : ParamRequest) :
    r.initQueryParam.toHttpRequest = r.toHttpRequest ∧ r.initQueryParam.cookies = r.cookies := by
  rw [initQueryParam]
  split <;> exact ⟨rfl, rfl⟩

theorem initBodyParam_toHttpRequest (r : ParamRequest) :
    r.initBodyParam.toHttpRequest = r.toHttpRequest ∧ r.initBodyParam.cookies = r.cookies := by
  rw [initBodyParam]
  split
  · exact ⟨rfl, rfl⟩
  · split <;> exact ⟨rfl, rfl⟩

theorem initCookies_params (r : ParamRequest) : r.initCookies.params = r.params := by
  rw [initCookies]
  split
  · rfl
  · split <;> rfl

theorem initParam_flags (hflag : r.parserParamFlag = 0) :
    r.initQueryParam.parserParamFlag = 0x1 ∧
      r.initQueryParam.initBodyParam.parserParamFlag = 0x3 := by
  have hquery : r.initQueryParam.parserParamFlag = 0x1 := by simp [initQueryParam, hflag]
  refine ⟨hquery, ?_⟩
  have hflag₂ : r.initQueryParam.parserParamFlag &&& 0x2 = 0 := by rw [hquery]; decide
  rw [initBodyParam, if_neg (by simp [hflag₂])]
  split
  · simp only [hquery]
    decide
  · simp only [hquery]
    decide

/-- With the keys of the cookies trimmed and compared as the map compares them, the maps hold the
first pair of a key. -/
theorem initParam_find (hflag : r.parserParamFlag = 0) (hquery : BareLast 38 r.query)
    (hbody : r.isForm = true → BareLast 38 r.body) (hcookie : BareLast 59 r.cookie)
    (key : List UInt8) :
    r.initParam.params.find key =
        ParamMap.find (r.params ++ segmentPairs 38 id r.query ++
          if r.isForm then segmentPairs 38 id r.body else []) key ∧
      r.initParam.cookies.find key =
        ParamMap.find (r.cookies ++ segmentPairs 59 Trim r.cookie) key := by
  obtain ⟨hflag₁, hflag₂⟩ := initParam_flags hflag
  obtain ⟨hhead₁, hcookies₁⟩ := initQueryParam_toHttpRequest r
  obtain ⟨hhead₂, hcookies₂⟩ := initBodyParam_toHttpRequest r.initQueryParam
  have hform : r.initQueryParam.isForm = r.isForm := by rw [isForm, contentType, hhead₁]; rfl
  have htext : r.initQueryParam.initBodyParam.cookie = r.cookie := by
    rw [cookie, hhead₂, hhead₁]
    rfl
  constructor
  · have hread := find_initBodyParam (r := r.initQueryParam) (by rw [hflag₁]; decide)
      (by rw [hform, hhead₁]; exact hbody) key
    rw [hform, hhead₁, find_append, find_initQueryParam hflag hquery, ← find_append] at hread
    rw [initParam, initCookies_params, hread]
  · have hread := find_initCookies (r := r.initQueryParam.initBodyParam)
      (by rw [hflag₂]; decide) (by rw [htext]; exact hcookie) key
    rw [htext, hcookies₂, hcookies₁] at hread
    exact hread

/-- A request with the cookie header `a=1; b=2` and the query `a=1&b`. -/
def twoCookies : ParamRequest where
  query := chars ['a', '=', '1', '&', 'b']
  headers := [(chars ['C', 'o', 'o', 'k', 'i', 'e'],
    chars ['a', '=', '1', ';', ' ', 'b', '=', '2'])]

theorem initParam_find_twoCookies :
    twoCookies.initParam.params.find (chars ['A']) =
        ParamMap.find (twoCookies.params ++ segmentPairs 38 id twoCookies.query ++
          if twoCookies.isForm then segmentPairs 38 id twoCookies.body else []) (chars ['A']) ∧
      twoCookies.initParam.cookies.find (chars ['A']) =
        ParamMap.find (twoCookies.cookies ++ segmentPairs 59 Trim twoCookies.cookie)
          (chars ['A']) :=
  initParam_find rfl (by unfold BareLast; decide) (fun _ => by unfold BareLast; decide)
    (by unfold BareLast; decide) _

/-- The blank in front of the second name is not part of its key. -/
theorem not_initCookies_untrimmed :
    ¬ ∀ r : ParamRequest, r.parserParamFlag = 0 → ∀ key,
      r.initParam.cookies.find key =
        ParamMap.find (r.cookies ++ segmentPairs 59 id r.cookie) key := by
  intro h
  have hkey := h twoCookies rfl [32, 98]
  revert hkey
  decide

end ParamRequest

end Http
end Routn
