import Mathlib.Tactic
import Routn.Foundation.NestedMap

/-!
# `ServletDispatch`

The route table is what is left of the calls: for an exact uri the last call about it, and for the
patterns the additions that no later call is about, in their order (`remaining`).  `fnmatch` is a
relation between patterns and uris, and `FunctionServlet` makes a servlet of a callback.
-/

namespace Routn
namespace Http

open Foundation

/-- The tables of exact uris and of patterns, and the servlet for the rest. -/
structure ServletDispatch (Servlet : Type) where
  _datas : Map String Servlet := ∅
  _globs : List (String × Servlet) := []
  _default : Servlet

namespace ServletDispatch

variable {Servlet Callback : Type} (FunctionServlet : Callback → Servlet)
  (fnmatch : String → String → Bool)

/-! ## The code -/

def addServlet (s : ServletDispatch Servlet) (uri : String) (slt : Servlet) :
    ServletDispatch Servlet :=
  { s with _datas := AList.insert uri slt s._datas }

/-- The overload for callbacks resets the pointer that `_datas[uri]` finds or makes. -/
def addServletCallback (s : ServletDispatch Servlet) (uri : String) (cb : Callback) :
    ServletDispatch Servlet :=
  { s with _datas := AList.insert uri (FunctionServlet cb) s._datas }

/-- The loop that erases the first entry of a pattern. -/
def eraseGlob (uri : String) : List (String × Servlet) → List (String × Servlet)
  | [] => []
  | it :: globs => if it.1 = uri then globs else it :: eraseGlob uri globs

def addGlobServlet (s : ServletDispatch Servlet) (uri : String) (slt : Servlet) :
    ServletDispatch Servlet :=
  { s with _globs := eraseGlob uri s._globs ++ [(uri, slt)] }

def addGlobServletCallback (s : ServletDispatch Servlet) (uri : String) (cb : Callback) :
    ServletDispatch Servlet :=
  s.addGlobServlet uri (FunctionServlet cb)

def delServlet (s : ServletDispatch Servlet) (uri : String) : ServletDispatch Servlet :=
  { s with _datas := AList.erase uri s._datas }

def delGlobServlet (s : ServletDispatch Servlet) (uri : String) : ServletDispatch Servlet :=
  { s with _globs := eraseGlob uri s._globs }

/-- The loop over the patterns. -/
def matchGlob (uri : String) : List (String × Servlet) → Option Servlet
  | [] => none
  | it :: globs => if fnmatch it.1 uri then some it.2 else matchGlob uri globs

def getMatchedServlet (s : ServletDispatch Servlet) (uri : String) : Servlet :=
  match AList.lookup uri s._datas with
  | some slt => slt
  | none => (matchGlob fnmatch uri s._globs).getD s._default

/-! ## The calls -/

inductive Call (Servlet Callback : Type)
  | addServlet (uri : String) (slt : Servlet)
  | addServletCallback (uri : String) (cb : Callback)
  | addGlobServlet (uri : String) (slt : Servlet)
  | addGlobServletCallback (uri : String) (cb : Callback)
  | delServlet (uri : String)
  | delGlobServlet (uri : String)

def apply (s : ServletDispatch Servlet) : Call Servlet Callback → ServletDispatch Servlet
  | .addServlet uri slt => s.addServlet uri slt
  | .addServletCallback uri cb => s.addServletCallback FunctionServlet uri cb
  | .addGlobServlet uri slt => s.addGlobServlet uri slt
  | .addGlobServletCallback uri cb => s.addGlobServletCallback FunctionServlet uri cb
  | .delServlet uri => s.delServlet uri
  | .delGlobServlet uri => s.delGlobServlet uri

/-- A sequence of calls on a new dispatch. -/
def run (_default : Servlet) (calls : List (Call Servlet Callback)) : ServletDispatch Servlet :=
  calls.foldl (apply FunctionServlet) { _default }

/-! ## The route table -/

/-- What a call leaves for an exact uri, if it is about it. -/
def Call.exact (uri : String) : Call Servlet Callback → Option (Option Servlet)
  | .addServlet uri' slt => if uri' = uri then some (some slt) else none
  | .addServletCallback uri' cb => if uri' = uri then some (some (FunctionServlet cb)) else none
  | .delServlet uri' => if uri' = uri then some none else none
  | _ => none

/-- The pattern that a call is about. -/
def Call.pattern? : Call Servlet Callback → Option String
  | .addGlobServlet uri _ => some uri
  | .addGlobServletCallback uri _ => some uri
  | .delGlobServlet uri => some uri
  | _ => none

/-- The route that a call adds for a pattern. -/
def Call.glob? : Call Servlet Callback → Option (String × Servlet)
  | .addGlobServlet uri slt => some (uri, slt)
  | .addGlobServletCallback uri cb => some (uri, FunctionServlet cb)
  | _ => none

/-- The servlet that was added last for exactly this uri, and not deleted. -/
def lastAdded (calls : List (Call Servlet Callback)) (uri : String) : Option Servlet :=
  (calls.reverse.findSome? (Call.exact FunctionServlet uri)).join

/-- The patterns that remain: those of which no later call is about the same one. -/
def remaining : List (Call Servlet Callback) → List (String × Servlet)
  | [] => []
  | call :: calls =>
      match call.glob? FunctionServlet with
      | none => remaining calls
      | some route =>
          if some route.1 ∈ calls.map Call.pattern? then remaining calls
          else route :: remaining calls

/-- What the route table has for a uri. -/
def route (_default : Servlet) (calls : List (Call Servlet Callback)) (uri : String) : Servlet :=
  ((lastAdded FunctionServlet calls uri).or
    (((remaining FunctionServlet calls).find? fun g => fnmatch g.1 uri).map Prod.snd)).getD _default

/-- After the calls the dispatch is the route table, and a further call changes its own route. -/
structure Refines (_default : Servlet) (calls : List (Call Servlet Callback))
    (s : ServletDispatch Servlet) : Prop where
  unique : (s._globs.map Prod.fst).Nodup
  last : ∀ uri slt, (s.addGlobServlet uri slt)._globs =
    s._globs.filter (·.1 ≠ uri) ++ [(uri, slt)]
  deleted : ∀ uri, s.delGlobServlet uri = { s with _globs := s._globs.filter (·.1 ≠ uri) }
  deletedExact : ∀ uri, (s.delServlet uri)._globs = s._globs ∧
    ∀ uri', AList.lookup uri' (s.delServlet uri)._datas =
      if uri' = uri then none else AList.lookup uri' s._datas
  ordered : s._globs = remaining FunctionServlet calls
  matched : ∀ uri, s.getMatchedServlet fnmatch uri =
    route FunctionServlet fnmatch _default calls uri

/-! ## The loops -/

section Loops

variable {globs : List (String × Servlet)}

theorem eraseGlob_eq (hunique : (globs.map Prod.fst).Nodup) (uri : String) :
    eraseGlob uri globs = globs.filter (·.1 ≠ uri) := by
  induction globs with
  | nil => rfl
  | cons it globs ih =>
      simp only [List.map_cons, List.nodup_cons] at hunique
      obtain ⟨hnot, hunique⟩ := hunique
      rw [eraseGlob]
      split
      · next heq =>
          have hother : ∀ g ∈ globs, g.1 ≠ uri := by
            intro g hg hsame
            exact hnot (heq ▸ hsame ▸ List.mem_map_of_mem hg)
          rw [List.filter_cons_of_neg (by simp [heq]),
            List.filter_eq_self.mpr (by simpa using hother)]
      · next hne => simp [hne, ih hunique]

theorem matchGlob_eq (uri : String) :
    matchGlob fnmatch uri globs = (globs.find? fun g => fnmatch g.1 uri).map Prod.snd := by
  induction globs with
  | nil => rfl
  | cons it globs ih =>
      by_cases hit : fnmatch it.1 uri = true
      · simp [matchGlob, hit]
      · simp [matchGlob, hit, ih]

end Loops

/-! ## What is left of the calls -/

section Calls

variable {FunctionServlet} {calls : List (Call Servlet Callback)} {call : Call Servlet Callback}

theorem pattern?_of_glob? {g : String × Servlet} (h : call.glob? FunctionServlet = some g) :
    call.pattern? = some g.1 := by
  cases call with
  | addGlobServlet uri slt => obtain rfl := Option.some.inj h; rfl
  | addGlobServletCallback uri cb => obtain rfl := Option.some.inj h; rfl
  | _ => cases h

theorem mem_pattern?_of_mem_remaining {g : String × Servlet}
    (h : g ∈ remaining FunctionServlet calls) : some g.1 ∈ calls.map Call.pattern? := by
  induction calls with
  | nil => cases h
  | cons call calls ih =>
      rw [List.map_cons, List.mem_cons]
      rw [remaining] at h
      split at h
      · exact .inr (ih h)
      · next g' hglob =>
          split at h
          · exact .inr (ih h)
          · rcases List.mem_cons.mp h with rfl | h
            · exact .inl (pattern?_of_glob? hglob).symm
            · exact .inr (ih h)

theorem nodup_remaining : ((remaining FunctionServlet calls).map Prod.fst).Nodup := by
  induction calls with
  | nil => simp [remaining]
  | cons call calls ih =>
      rw [remaining]
      split
      · exact ih
      · next g hglob =>
          split
          · exact ih
          · next hnot =>
              rw [List.map_cons, List.nodup_cons]
              refine ⟨fun hmem => ?_, ih⟩
              obtain ⟨g', hg', hsame⟩ := List.mem_map.mp hmem
              exact hnot (hsame ▸ mem_pattern?_of_mem_remaining hg')

/-- One more call: it takes the route of its pattern away, and adds its own at the end. -/
theorem remaining_append (calls : List (Call Servlet Callback)) (call : Call Servlet Callback) :
    remaining FunctionServlet (calls ++ [call]) =
      (remaining FunctionServlet calls).filter (fun g => some g.1 ≠ call.pattern?) ++
        (call.glob? FunctionServlet).toList := by
  induction calls with
  | nil =>
      cases hglob : call.glob? FunctionServlet with
      | none => simp [remaining, hglob]
      | some g => simp [remaining, hglob]
  | cons first calls ih =>
      rw [List.cons_append, remaining, remaining]
      cases hglob : first.glob? FunctionServlet with
      | none => exact ih
      | some g =>
          by_cases hlater : some g.1 ∈ calls.map Call.pattern?
          · simp only [List.map_append, List.mem_append, hlater, true_or, if_true, ih]
          · have hboth : some g.1 ∈ (calls ++ [call]).map Call.pattern? ↔
                some g.1 = call.pattern? := by
              simp only [List.map_append, List.mem_append, hlater, false_or, List.map_singleton,
                List.mem_singleton]
            by_cases hlast : some g.1 = call.pattern?
            · simp only [if_neg hlater, if_pos (hboth.mpr hlast), ih]
              rw [List.filter_cons_of_neg (by simp [hlast])]
            · simp only [if_neg hlater, if_neg (mt hboth.mp hlast), ih]
              rw [List.filter_cons_of_pos (by simp [hlast]), List.cons_append]

theorem lastAdded_append (uri : String) :
    lastAdded FunctionServlet (calls ++ [call]) uri =
      match call.exact FunctionServlet uri with
      | some left => left
      | none => lastAdded FunctionServlet calls uri := by
  cases hexact : call.exact FunctionServlet uri <;> simp [lastAdded, hexact]

/-- What one call does to the tables. -/
theorem apply_spec (s : ServletDispatch Servlet) (hunique : (s._globs.map Prod.fst).Nodup)
    (call : Call Servlet Callback) :
    (s.apply FunctionServlet call)._default = s._default ∧
      (s.apply FunctionServlet call)._globs =
        s._globs.filter (fun g => some g.1 ≠ call.pattern?) ++
          (call.glob? FunctionServlet).toList ∧
      ∀ uri, AList.lookup uri (s.apply FunctionServlet call)._datas =
        match call.exact FunctionServlet uri with
        | some left => left
        | none => AList.lookup uri s._datas := by
  cases call with
  | addServlet uri slt =>
      refine ⟨rfl, by simp [apply, addServlet, Call.pattern?, Call.glob?], fun uri' => ?_⟩
      by_cases heq : uri = uri'
      · simp [apply, addServlet, Call.exact, heq]
      · simp [apply, addServlet, Call.exact, heq, AList.lookup_insert_ne (Ne.symm heq)]
  | addServletCallback uri cb =>
      refine ⟨rfl, by simp [apply, addServletCallback, Call.pattern?, Call.glob?], fun uri' => ?_⟩
      by_cases heq : uri = uri'
      · simp [apply, addServletCallback, Call.exact, heq]
      · simp [apply, addServletCallback, Call.exact, heq, AList.lookup_insert_ne (Ne.symm heq)]
  | addGlobServlet uri slt =>
      refine ⟨rfl, ?_, fun uri' => rfl⟩
      simp [apply, addGlobServlet, Call.pattern?, Call.glob?, eraseGlob_eq hunique]
  | addGlobServletCallback uri cb =>
      refine ⟨rfl, ?_, fun uri' => rfl⟩
      simp [apply, addGlobServletCallback, addGlobServlet, Call.pattern?, Call.glob?,
        eraseGlob_eq hunique]
  | delServlet uri =>
      refine ⟨rfl, by simp [apply, delServlet, Call.pattern?, Call.glob?], fun uri' => ?_⟩
      by_cases heq : uri = uri'
      · simp [apply, delServlet, Call.exact, heq]
      · simp [apply, delServlet, Call.exact, heq, AList.lookup_erase_ne (Ne.symm heq)]
  | delGlobServlet uri =>
      refine ⟨rfl, ?_, fun uri' => rfl⟩
      simp [apply, delGlobServlet, Call.pattern?, Call.glob?, eraseGlob_eq hunique]

/-- **What a sequence leaves.** -/
theorem run_spec (_default : Servlet) (calls : List (Call Servlet Callback)) :
    (run FunctionServlet _default calls)._default = _default ∧
      (run FunctionServlet _default calls)._globs = remaining FunctionServlet calls ∧
      ∀ uri, AList.lookup uri (run FunctionServlet _default calls)._datas =
        lastAdded FunctionServlet calls uri := by
  induction calls using List.reverseRecOn with
  | nil => exact ⟨rfl, rfl, fun uri => rfl⟩
  | append_singleton calls call ih =>
      obtain ⟨hdefault, hglobs, hdatas⟩ := ih
      have hunique : ((run FunctionServlet _default calls)._globs.map Prod.fst).Nodup :=
        hglobs ▸ nodup_remaining
      have hrun : run FunctionServlet _default (calls ++ [call]) =
          (run FunctionServlet _default calls).apply FunctionServlet call := by
        simp [run]
      obtain ⟨hdefault', hglobs', hdatas'⟩ := apply_spec _ hunique call
      rw [hrun]
      refine ⟨hdefault'.trans hdefault, ?_, fun uri => ?_⟩
      · rw [hglobs', hglobs, remaining_append]
      · rw [hdatas', lastAdded_append, hdatas]

end Calls

/-- **The dispatch refines the route table**, after every sequence of calls. -/
theorem refines_run (_default : Servlet) (calls : List (Call Servlet Callback)) :
    Refines FunctionServlet fnmatch _default calls (run FunctionServlet _default calls) := by
  have hspec := @run_spec _ _ FunctionServlet
  obtain ⟨hdefault, hglobs, hdatas⟩ := hspec _default calls
  have hunique : ((run FunctionServlet _default calls)._globs.map Prod.fst).Nodup :=
    hglobs ▸ nodup_remaining
  exact {
    unique := hunique
    last := fun uri slt => by rw [addGlobServlet, eraseGlob_eq hunique]
    deleted := fun uri => by rw [delGlobServlet, eraseGlob_eq hunique]
    deletedExact := by
      refine fun uri => ⟨rfl, fun uri' => ?_⟩
      by_cases heq : uri' = uri
      · subst heq
        simp [delServlet]
      · simp [delServlet, heq, AList.lookup_erase_ne heq]
    ordered := hglobs
    matched := fun uri => by
      rw [getMatchedServlet, route, hdatas, matchGlob_eq, hglobs, hdefault]
      cases lastAdded FunctionServlet calls uri <;> rfl }

end ServletDispatch
end Http
end Routn
