-- SUMMARY: Which paths every function hands to the client in the same way, and gets back unchanged.
import QtZooKeeper.Client.Decoding
import QtZooKeeper.Manager.PooledNodes
import QtZooKeeper.Manager.Steps

/-!
# One path, one znode

Fourteen functions take a path and encode it for the client, each on its own.
Thirteen of them use `toLatin1`, `deleteNodeSync` uses `toUtf8`, and what comes back
is decoded as UTF-8.
-/

namespace QtZooKeeper

open FallibleSystem

/-- The path a call names. -/
def Call.named : Call → Option QString
  | createNode a _ _ _ | createNodeSync a _ _ _ => some a.path
  | deleteNode path _ _ | deleteNodeSync path _ | existsNode path _ _ | existsNodeSync path _
  | setNodeValue path _ _ _ | setNodeValueSync path _ _ | getNodeValue path _ _ _ _ _
  | getNodeValueSync path _ _ _ | wgetNodeValue path _ _ _ _ | getChildrenNode path _ _ _
  | getChildrenNodeSync path _ _ | wgetChildrenNode path _ _ _ _ => some path
  | initializeHandle _ _ _ | addAuth _ _ | quit | destructor | setExists _ _ => none

/-- In some run a call that names `p` hands the bytes `b` to the client. -/
def Hands (p : QString) (b : Bytes) : Prop :=
  ∃ s c s' fn zh args, system.Reachable s ∧ system.enabled (.call c) s ∧
    system.step (.call c) s = .ok s' ∧ c.named = some p ∧
    s'.session.calls = s.session.calls ++ [.call fn zh args] ∧ args.path = b

/-- All functions address one znode by `p` and no other path addresses it, the bytes
decode to `p`, and a create that the server answers with the requested path leaves the
entry under `p` as it is. -/
structure OneZnode (p : QString) : Prop where
  same : ∀ b b', Hands p b → Hands p b' → b = b'
  decodes : ∀ b, Hands p b → fromUtf8 b = p
  apart : ∀ q, NoNul q → q ≠ p → ∀ b, Hands p b → ¬ Hands q b
  answered : ∀ s s' r b, system.Reachable s → Hands p b → r.path = p →
    system.enabled (.deliver r (.create 0 (some (fromUtf8 b)))) s →
    system.step (.deliver r (.create 0 (some (fromUtf8 b)))) s = .ok s' →
    s'.pool.lookup p = s.pool.lookup p

variable {p q : QString} {b : Bytes} {c : Call} {s s' : Manager} {fn : LibFn} {args : LibArgs}

/-- What the functions make of a path. -/
theorem path_of_libCall (hc : c.named = some p) (h : c.libCall s = some (fn, args)) :
    args.path = constData (toLatin1 p) ∨ args.path = constData (toUtf8 p) := by
  cases c with
  | createNode a ret ctx n | createNodeSync a ret ctx n =>
    simp only [Call.libCall] at h
    split at h
    · cases h
    · cases h
      cases hc
      exact .inl rfl
  | deleteNodeSync path ret =>
    cases h
    cases hc
    exact .inr rfl
  | initializeHandle | addAuth | quit | destructor | setExists => cases hc
  | _ =>
    cases h
    cases hc
    exact .inl rfl

/-- A call that names a path does nothing to the session but make its library call. -/
theorem sessionOp_of_named (s : Manager) (hc : c.named = some p) :
    (c.libCall s = none ∧ c.sessionOp s = .keep) ∨
      ∃ fn args, c.libCall s = some (fn, args) ∧ c.sessionOp s = .invoke fn args := by
  have hop : ∀ {o}, c.libCall s = o → c.sessionOp s = o.elim .keep fun x => .invoke x.1 x.2 := by
    rintro o rfl
    cases c with
    | createNode a ret ctx n | createNodeSync a ret ctx n =>
      simp only [Call.sessionOp, Call.libCall]
      cases s.pool.contains a.path <;> rfl
    | initializeHandle | addAuth | quit | destructor | setExists => cases hc
    | _ => rfl
  cases hl : c.libCall s with
  | none => exact .inl ⟨rfl, hop hl⟩
  | some x => exact .inr ⟨x.1, x.2, rfl, hop hl⟩

/-- `deleteNode` and `deleteNodeSync` hand over a path in each of the two ways. -/
theorem hands_iff : Hands p b ↔ b = constData (toLatin1 p) ∨ b = constData (toUtf8 p) := by
  constructor
  · rintro ⟨s, c, s', fn, zh, args, -, -, hstep, hc, hcalls, rfl⟩
    have hsession := step_session (l := .call c) hstep
    rcases sessionOp_of_named s hc with ⟨-, hop⟩ | ⟨fn', args', hl, hop⟩
    · rw [hsession, Label.sessionOp, hop] at hcalls
      simp [SessionOp.apply] at hcalls
    · rw [hsession, Label.sessionOp, hop] at hcalls
      have hargs : args' = args := by
        simp only [SessionOp.apply, Session.invoke, List.append_cancel_left_eq] at hcalls
        cases hcalls
        rfl
      rw [← hargs]
      exact path_of_libCall hc hl
  · have hinit : system.Reachable system.init := ⟨[], .nil⟩
    rintro (rfl | rfl)
    · refine ⟨system.init, .deleteNode p 0 0, _, .zooAdelete, none, _, hinit, ?_, rfl, rfl, rfl, rfl⟩
      exact ⟨rfl, rfl, by simp [Call.newNode], by simp [Call.newCtx, system],
        by simp [Call.newHandle]⟩
    · refine ⟨system.init, .deleteNodeSync p 0, _, .zooDelete, none, _, hinit, ?_, rfl, rfl, rfl, rfl⟩
      exact ⟨rfl, rfl, by simp [Call.newNode], by simp [Call.newCtx], by simp [Call.newHandle]⟩

/-- Without U+0000 nothing of the path is cut off. -/
theorem hands_iff_of_noNul (hp : NoNul p) : Hands p b ↔ b = toLatin1 p ∨ b = toUtf8 p := by
  rw [hands_iff, constData_toLatin1 hp, constData_toUtf8 hp]

theorem reportedPath_self : Pool.reportedPath (some p) p = p := by
  rw [Pool.reportedPath]
  split <;> rfl

/-- A create answered with its own path keeps its entry. -/
theorem lookup_of_answered {r : Request} (hs : system.Reachable s) (hr : r.path = p)
    (hstep : system.step (.deliver r (.create 0 (some p))) s = .ok s') :
    s'.pool.lookup p = s.pool.lookup p := by
  subst hr
  have hpool := step_pool (l := .deliver r (.create 0 (some r.path))) hstep
  rcases Pool.completed_of_acreateCompletion (sound_of_reachable hs) hpool with
    ⟨-, hkept⟩ | ⟨-, n, d, hn, hc⟩
  · rw [hkept]
  · have hlook := hc.lookup r.path
    rw [reportedPath_self, if_pos rfl] at hlook
    rw [hlook, (Pool.pooled_eq_some.mp hn).1]
    rfl

theorem not_hands_of_ne (hp : IsAscii p) (hmark : '?' ∉ p.toList) (hq : NoNul q) (hne : q ≠ p) :
    ¬ Hands q (toUtf8 p) := by
  have hbytes : toLatin1 p = toUtf8 p := toLatin1_eq_toUtf8_iff.mpr hp
  rw [hands_iff_of_noNul hq]
  rintro (hlatin1 | hutf8)
  · rw [← hbytes, eq_comm] at hlatin1
    exact hne ((toLatin1_inj hp hmark).mp hlatin1)
  · exact hne (toUtf8_injective hutf8).symm

/-- The paths that name one znode each are the ASCII ones without question marks. -/
theorem oneZnode_iff (hp : NoNul p) : OneZnode p ↔ IsAscii p ∧ '?' ∉ p.toList := by
  have hlatin1 : Hands p (toLatin1 p) := (hands_iff_of_noNul hp).mpr (.inl rfl)
  have hutf8 : Hands p (toUtf8 p) := (hands_iff_of_noNul hp).mpr (.inr rfl)
  constructor
  · intro h
    refine ⟨toLatin1_eq_toUtf8_iff.mp (h.same _ _ hlatin1 hutf8), ?_⟩
    intro hmark
    have hq : NoNul (unquestioned p) := noNul_unquestioned hp
    refine h.apart (unquestioned p) hq (unquestioned_ne hmark) _ hlatin1 ?_
    rw [hands_iff_of_noNul hq, toLatin1_unquestioned]
    exact .inl rfl
  · rintro ⟨hascii, hmark⟩
    have hbytes : toLatin1 p = toUtf8 p := toLatin1_eq_toUtf8_iff.mpr hascii
    have hone : ∀ b, Hands p b → b = toUtf8 p := by
      intro b hb
      rw [hands_iff_of_noNul hp, hbytes, or_self] at hb
      exact hb
    have hdecodes : ∀ b, Hands p b → fromUtf8 b = p := by
      intro b hb
      rw [hone b hb, fromUtf8_toUtf8 hp]
    refine ⟨?_, hdecodes, ?_, ?_⟩
    · intro b b' hb hb'
      rw [hone b hb, hone b' hb']
    · intro q hq hne b hb
      rw [hone b hb]
      exact not_hands_of_ne hascii hmark hq hne
    · intro s s' r b hs hb hr _ hstep
      rw [hdecodes b hb] at hstep
      exact lookup_of_answered hs hr hstep

/-- An ordinary path. -/
theorem oneZnode_ordinary : OneZnode "/a" := (oneZnode_iff (by decide)).mpr (by decide)

/-- `deleteNodeSync` addresses another znode than all the others. -/
theorem not_oneZnode_accented : ¬ ∀ p, NoNul p → OneZnode p := by
  intro h
  have hsame := (h "/é" (by decide)).same (constData (toLatin1 "/é")) (constData (toUtf8 "/é"))
    (hands_iff.mpr (.inl rfl)) (hands_iff.mpr (.inr rfl))
  exact absurd hsame (by decide)

end QtZooKeeper
