import Mathlib.Tactic

/-!
Symbolic links: where a file system leads when it follows them, and where a
path leads as a text.
-/

namespace Links

variable {ν : Type}

inductive Move (ν : Type)
  | up
  | into (name : ν)
deriving DecidableEq, Repr

inductive Node (ν : Type)
  | directory
  | file
  | link (absolute : Bool) (target : List (Move ν))
deriving DecidableEq, Repr

def climb : List ν → List (Move ν) → List ν
  | d, [] => d
  | d, .up :: ms => climb d.dropLast ms
  | d, .into n :: ms => climb (d ++ [n]) ms

theorem climb_append (d : List ν) (ms ms' : List (Move ν)) :
    climb d (ms ++ ms') = climb (climb d ms) ms' := by
  induction ms generalizing d with
  | nil => rfl
  | cons m ms ih => cases m <;> exact ih _

/-- Where the target of a link in the directory `d` starts. -/
def base (absolute : Bool) (d : List ν) : List ν := if absolute then [] else d

variable (fs : List ν → Option (Node ν))

/-- The file system, in the directory `d`, follows `ms` to `q`. The last name
need not be there. -/
inductive Leads : List ν → List (Move ν) → List ν → Prop
  | here (d) : Leads d [] d
  | up {d ms q} : Leads d.dropLast ms q → Leads d (.up :: ms) q
  | into {d n ms q} : fs (d ++ [n]) = some .directory → Leads (d ++ [n]) ms q →
      Leads d (.into n :: ms) q
  | through {d n b t e ms q} : fs (d ++ [n]) = some (.link b t) → Leads (base b d) t e →
      (ms = [] ∨ fs e = some .directory) → Leads e ms q → Leads d (.into n :: ms) q
  | last {d n} : fs (d ++ [n]) ≠ some .directory → (∀ b t, fs (d ++ [n]) ≠ some (.link b t)) →
      Leads d [.into n] (d ++ [n])

/-- No link is met on the way, and what is gone through are directories. -/
def PlainFrom : List ν → List (Move ν) → Prop
  | _, [] => True
  | d, .up :: ms => PlainFrom d.dropLast ms
  | d, .into n :: ms =>
      (∀ b t, fs (d ++ [n]) ≠ some (.link b t)) ∧ (ms = [] ∨ fs (d ++ [n]) = some .directory) ∧
        PlainFrom (d ++ [n]) ms

/-- Following `ms` from `d` passes the link at `link`, which leads to `e`, and
meets no other link on the remaining `post`. -/
structure LastLink (d : List ν) (ms : List (Move ν)) (link e : List ν) (post : List (Move ν)) :
    Prop where
  passes : ∃ pre d' n b t, ms = pre ++ .into n :: post ∧ Leads fs d pre d' ∧
    fs d' = some .directory ∧ link = d' ++ [n] ∧ fs link = some (.link b t) ∧
    Leads fs (base b d') t e
  goesOn : post = [] ∨ fs e = some .directory
  plain : PlainFrom fs e post

variable {fs}

theorem leads_climb {d : List ν} {ms : List (Move ν)} (h : PlainFrom fs d ms) :
    Leads fs d ms (climb d ms) := by
  induction ms generalizing d with
  | nil => exact .here d
  | cons m ms ih =>
      cases m with
      | up => exact .up (ih h)
      | into n =>
          obtain ⟨hlink, hdir, hrest⟩ := h
          by_cases hd : fs (d ++ [n]) = some .directory
          · exact .into hd (ih hrest)
          · obtain rfl := hdir.resolve_right hd
            exact .last hd hlink

theorem Leads.trans {d e q : List ν} {ms ms' : List (Move ν)} (h : Leads fs d ms e)
    (he : ms' = [] ∨ fs e = some .directory) (h' : Leads fs e ms' q) :
    Leads fs d (ms ++ ms') q := by
  induction h with
  | here d => exact h'
  | up _ ih => exact .up (ih he h')
  | into hd _ ih => exact .into hd (ih he h')
  | @through d n b t e' ms e hl ht hdir hms _ ih =>
      have hgoes : ms ++ ms' = [] ∨ fs e' = some .directory := by
        rcases hdir with rfl | hdir
        · cases hms
          exact he
        · exact .inr hdir
      exact .through hl ht hgoes (ih he h')
  | last hd hl =>
      obtain rfl := he.resolve_right hd
      cases h'
      exact .last hd hl

theorem LastLink.leads {d link e : List ν} {ms post : List (Move ν)}
    (h : LastLink fs d ms link e post) : Leads fs d ms (climb e post) := by
  obtain ⟨pre, d', n, b, t, rfl, hpre, hd', rfl, hlink, ht⟩ := h.passes
  exact hpre.trans (.inr hd') (.through hlink ht h.goesOn (leads_climb h.plain))

theorem LastLink.cons_up {d link e : List ν} {ms post : List (Move ν)}
    (h : LastLink fs d.dropLast ms link e post) : LastLink fs d (.up :: ms) link e post := by
  obtain ⟨pre, d', n, b, t, rfl, hpre, hrest⟩ := h.passes
  exact ⟨⟨.up :: pre, d', n, b, t, rfl, .up hpre, hrest⟩, h.goesOn, h.plain⟩

theorem LastLink.cons_into {d link e : List ν} {n : ν} {ms post : List (Move ν)}
    (hd : fs (d ++ [n]) = some .directory) (h : LastLink fs (d ++ [n]) ms link e post) :
    LastLink fs d (.into n :: ms) link e post := by
  obtain ⟨pre, d', n', b, t, rfl, hpre, hrest⟩ := h.passes
  exact ⟨⟨.into n :: pre, d', n', b, t, rfl, .into hd hpre, hrest⟩, h.goesOn, h.plain⟩

theorem LastLink.cons_through {d d₁ link e : List ν} {n : ν} {b : Bool}
    {t ms post : List (Move ν)} (hlink : fs (d ++ [n]) = some (.link b t))
    (ht : Leads fs (base b d) t d₁) (hd₁ : fs d₁ = some .directory)
    (h : LastLink fs d₁ ms link e post) : LastLink fs d (.into n :: ms) link e post := by
  obtain ⟨pre, d', n', b', t', rfl, hpre, hrest⟩ := h.passes
  exact ⟨⟨.into n :: pre, d', n', b', t', rfl, .through hlink ht (.inr hd₁) hpre, hrest⟩,
    h.goesOn, h.plain⟩

section inside

variable {inside : List ν → Prop}

def Way (fs : List ν → Option (Node ν)) (inside : List ν → Prop) (d : List ν)
    (ms : List (Move ν)) (q : List ν) : Prop :=
  (PlainFrom fs d ms ∧ q = climb d ms) ∨
    ∃ link e post, LastLink fs d ms link e post ∧ (inside link → inside e) ∧ q = climb e post

theorem leads_inside (hroot : fs [] = some .directory)
    (hup : ∀ d, fs d = some .directory → fs d.dropLast = some .directory)
    (hin : ∀ d n b t, fs (d ++ [n]) = some (.link b t) → fs d = some .directory)
    (hplain : ∀ d n b t, inside (d ++ [n]) → fs (d ++ [n]) = some (.link b t) →
      PlainFrom fs (base b d) t → inside (climb (base b d) t))
    (hlast : ∀ d n b t link e post, inside (d ++ [n]) → fs (d ++ [n]) = some (.link b t) →
      LastLink fs (base b d) t link e post → (inside link → inside e) → inside (climb e post))
    {d : List ν} {n : ν} {b : Bool} {t : List (Move ν)} {q : List ν} (hd : inside (d ++ [n]))
    (hlink : fs (d ++ [n]) = some (.link b t)) (h : Leads fs (base b d) t q) : inside q := by
  have hbase {d n b t} (hl : fs (d ++ [n]) = some (.link b t)) :
      fs (base b d) = some .directory := by
    cases b
    · exact hin _ _ _ _ hl
    · exact hroot
  have hinside {d n b t q} (hd : inside (d ++ [n])) (hl : fs (d ++ [n]) = some (.link b t))
      (hw : Way fs inside (base b d) t q) : inside q := by
    rcases hw with ⟨hp, rfl⟩ | ⟨link, e, post, hlink, he, rfl⟩
    · exact hplain _ _ _ _ hd hl hp
    · exact hlast _ _ _ _ _ _ _ hd hl hlink he
  have hway {d ms q} (h : Leads fs d ms q) (hd : fs d = some .directory) : Way fs inside d ms q := by
    induction h with
    | here d => exact .inl ⟨trivial, rfl⟩
    | up _ ih =>
        rcases ih (hup _ hd) with ⟨hp, rfl⟩ | ⟨link, e, post, hl, he, rfl⟩
        · exact .inl ⟨hp, rfl⟩
        · exact .inr ⟨link, e, post, hl.cons_up, he, rfl⟩
    | into hn _ ih =>
        rcases ih hn with ⟨hp, rfl⟩ | ⟨link, e, post, hl, he, rfl⟩
        · exact .inl ⟨⟨fun b t => by simp [hn], .inr hn, hp⟩, rfl⟩
        · exact .inr ⟨link, e, post, hl.cons_into hn, he, rfl⟩
    | @through d n b t e ms q hl ht hgoes hms iht ihms =>
        have he : inside (d ++ [n]) → inside e := fun hin' => hinside hin' hl (iht (hbase hl))
        rcases hgoes with rfl | hdir
        · cases hms
          exact .inr ⟨_, _, [], ⟨⟨[], d, n, b, t, rfl, .here d, hd, rfl, hl, ht⟩, .inl rfl, trivial⟩,
            he, rfl⟩
        · rcases ihms hdir with ⟨hp, rfl⟩ | ⟨link, e', post, hl', he', rfl⟩
          · exact .inr ⟨_, _, ms, ⟨⟨[], d, n, b, t, rfl, .here d, hd, rfl, hl, ht⟩, .inr hdir, hp⟩,
              he, rfl⟩
          · exact .inr ⟨link, e', post, hl'.cons_through hl ht hdir, he', rfl⟩
    | last hn hl => exact .inl ⟨⟨hl, .inl rfl, trivial⟩, rfl⟩
  exact hinside hd hlink (hway h (hbase hlink))

end inside

end Links
