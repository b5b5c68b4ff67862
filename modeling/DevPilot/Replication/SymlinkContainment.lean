import DevPilot.Replication.WorkspacePaths

/-!
Where the symlinks of a materialised workspace lead. The checks resolve one
target at a time, as a text; the file system goes on from where the links on
the way lead.
-/

namespace DevPilot.Replication

open PathText Links

def WorkspaceManifestEntry.node : WorkspaceManifestEntry → Links.Node Text
  | directory _ => .directory
  | file .. => .file
  | symlink _ target => .link (isAbsolute target) (moves target)

structure WorkspaceHost where
  nodes : List Text → Option (Links.Node Text)
  root : List Text
  nodes_nil : nodes [] = some .directory
  parents : ∀ p, p ≠ [] → nodes p ≠ none → nodes p.dropLast = some .directory
  root_directory : nodes root = some .directory

namespace WorkspaceHost

variable (host : WorkspaceHost)

/-- Below the root lie the entries of a manifest that has been materialised at
`targetPath`, and nothing else. -/
def Materialises (targetPath : List Text) (entries : List WorkspaceManifestEntry) : Prop :=
  ∀ p, p ≠ [] → ∀ node, host.nodes (host.root ++ p) = some node ↔
    ∃ e ∈ entries, resolveTargetWorkspacePath targetPath e.relativePath = .ok (targetPath ++ p) ∧
      e.node = node

/-- Whatever symlink of the workspace is followed, it leads into the workspace. -/
def Contained : Prop :=
  ∀ d name b t q, host.root <+: d → host.nodes (d ++ [name]) = some (.link b t) →
    Leads host.nodes (base b d) t q → host.root <+: q

/-- What a target says after the last link that it passes stays inside, from
where that link leads. Where `targetPath` is not the real path of the root, so
do the targets that pass no link. -/
structure GoesOnInside (targetPath : List Text) : Prop where
  after_link : ∀ d name b t link e post, host.root <+: d →
    host.nodes (d ++ [name]) = some (.link b t) →
    LastLink host.nodes (base b d) t link e post → (host.root <+: link → host.root <+: e) →
    host.root <+: climb e post
  direct : host.root ≠ targetPath → ∀ d name b t, host.root <+: d →
    host.nodes (d ++ [name]) = some (.link b t) → PlainFrom host.nodes (base b d) t →
    host.root <+: climb (base b d) t

variable {host}

theorem directory_dropLast (d : List Text) (h : host.nodes d = some .directory) :
    host.nodes d.dropLast = some .directory := by
  by_cases hd : d = []
  · subst hd
    exact h
  · exact host.parents d hd (by simp [h])

theorem directory_of_link (d : List Text) (name : Text) (b : Bool) (t : List (Move Text))
    (h : host.nodes (d ++ [name]) = some (.link b t)) : host.nodes d = some .directory := by
  simpa using host.parents (d ++ [name]) (by simp) (by simp [h])

theorem prefix_of_link {d : List Text} {name : Text} {b : Bool} {t : List (Move Text)}
    (hroot : host.root <+: d ++ [name]) (h : host.nodes (d ++ [name]) = some (.link b t)) :
    host.root <+: d := by
  rcases List.prefix_concat_iff.mp hroot with he | hd
  · rw [← he, host.root_directory] at h
    cases h
  · exact hd

theorem climb_inside {removed entries} (hcheck :
      assertSyncArtifactsStayWithinTarget host.root removed entries = .ok ())
    (hm : host.Materialises host.root entries) {d : List Text} {name : Text} {b : Bool}
    {t : List (Move Text)} (hd : host.root <+: d)
    (hlink : host.nodes (d ++ [name]) = some (.link b t)) :
    host.root <+: climb (base b d) t := by
  obtain ⟨p, rfl⟩ := hd
  rw [List.append_assoc] at hlink
  obtain ⟨e, he, hpath, hnode⟩ := (hm (p ++ [name]) (by simp) _).mp hlink
  have hentry := assertEntryStaysWithinTarget_ok hcheck he
  cases e with
  | directory rp => cases hnode
  | file rp digest size executable => cases hnode
  | symlink rp target =>
      rw [assertEntryStaysWithinTarget, hpath] at hentry
      obtain ⟨-, hinside⟩ := assertWorkspaceMaterializationSymlinkTarget_ok hentry
      rw [← List.append_assoc, List.dropLast_concat, resolve_eq_climb] at hinside
      cases hnode
      exact hinside

theorem contained_of_goesOnInside {targetPath removed entries}
    (hcheck : assertSyncArtifactsStayWithinTarget targetPath removed entries = .ok ())
    (hm : host.Materialises targetPath entries) (h : host.GoesOnInside targetPath) :
    host.Contained := by
  intro d name b t q hd hlink hleads
  refine @leads_inside _ host.nodes (host.root <+: ·) host.nodes_nil directory_dropLast
    directory_of_link ?_ ?_ _ _ _ _ _ (hd.trans (List.prefix_append d [name])) hlink hleads
  · intro d name b t hin hlink hplain
    have hd := prefix_of_link hin hlink
    by_cases hroot : host.root = targetPath
    · subst hroot
      exact climb_inside hcheck hm hd hlink
    · exact h.direct hroot d name b t hd hlink hplain
  · intro d name b t link e post hin hlink hlast he
    exact h.after_link d name b t link e post (prefix_of_link hin hlink) hlink hlast he

/-- Following a symlink of a workspace whose entries pass the checks leads
outside exactly where a target goes on, after a link that it passes, to the
outside of the directory this link leads to. -/
theorem symlinks_contained_iff {targetPath removed entries}
    (hcheck : assertSyncArtifactsStayWithinTarget targetPath removed entries = .ok ())
    (hm : host.Materialises targetPath entries) :
    host.Contained ↔ host.GoesOnInside targetPath := by
  refine ⟨fun h => ⟨?_, ?_⟩, contained_of_goesOnInside hcheck hm⟩
  · intro d name b t link e post hd hlink hlast _
    exact h d name b t _ hd hlink hlast.leads
  · intro _ d name b t hd hlink hplain
    exact h d name b t _ hd hlink (leads_climb hplain)

def ofTable (root : List Text) (table : List (List Text × Links.Node Text))
    (hparents : ∀ e ∈ table, e.1.dropLast <+: root ∨
      (table.lookup e.1.dropLast = some .directory)) : WorkspaceHost where
  nodes p := if p <+: root then some .directory else table.lookup p
  root := root
  nodes_nil := if_pos List.nil_prefix
  root_directory := if_pos (List.prefix_refl root)
  parents p hp h := by
    split_ifs with hdrop
    · rfl
    · have hnot : ¬p <+: root := fun hpre => hdrop ((List.dropLast_prefix p).trans hpre)
      rw [if_neg hnot] at h
      obtain ⟨node, hnode⟩ := Option.ne_none_iff_exists'.mp h
      obtain ⟨l₁, l₂, rfl, -⟩ := List.lookup_eq_some_iff.mp hnode
      exact (hparents (p, node) (by simp)).resolve_left hdrop

theorem lookup_eq_some_iff_mem {table : List (List Text × Links.Node Text)}
    (hnodup : (table.map Prod.fst).Nodup) {p : List Text} {node : Links.Node Text} :
    table.lookup p = some node ↔ (p, node) ∈ table := by
  induction table with
  | nil => simp
  | cons e table ih =>
      obtain ⟨k, v⟩ := e
      obtain ⟨hk, htable⟩ := List.nodup_cons.mp hnodup
      by_cases hp : p = k
      · subst hp
        have hnot : (p, node) ∉ table := fun hmem =>
          hk (List.mem_map.mpr ⟨_, hmem, rfl⟩)
        simp [hnot, eq_comm]
      · have hbeq : (p == k) = false := by simpa using hp
        simp [List.lookup_cons, hbeq, ih htable, hp]

theorem materialises_ofTable {root : List Text} {table : List (List Text × Links.Node Text)}
    (hparents : ∀ e ∈ table, e.1.dropLast <+: root ∨
      table.lookup e.1.dropLast = some .directory)
    (hnodup : (table.map Prod.fst).Nodup) {entries : List WorkspaceManifestEntry}
    (hplaces : entries.map (fun e => (resolveTargetWorkspacePath root e.relativePath, e.node)) =
      table.map fun e => (.ok e.1, e.2)) :
    (ofTable root table hparents).Materialises root entries := by
  intro p hp node
  have hbelow : ¬root ++ p <+: root := fun h => hp (by simpa using h.length_le)
  have hplace : (∃ e ∈ entries, resolveTargetWorkspacePath root e.relativePath = .ok (root ++ p) ∧
      e.node = node) ↔ (.ok (root ++ p), node) ∈
        entries.map fun e => (resolveTargetWorkspacePath root e.relativePath, e.node) := by
    simp only [List.mem_map, Prod.mk.injEq]
  rw [hplace, hplaces]
  simp only [ofTable, if_neg hbelow, lookup_eq_some_iff_mem hnodup, List.mem_map, Prod.mk.injEq,
    Except.ok.injEq]
  constructor
  · exact fun h => ⟨_, h, rfl, rfl⟩
  · rintro ⟨⟨k, v⟩, he, rfl, rfl⟩
    exact he

/-- `a/b/s` leads to the root, so `q` leads to the directory the root is in. -/
def escapingEntries : List WorkspaceManifestEntry :=
  [.directory "a".toList, .directory "a/b".toList, .symlink "a/b/s".toList "../..".toList,
    .symlink "q".toList "a/b/s/..".toList]

def escapingRoot : List Text := ["home".toList, "ws".toList]

def escapingTable : List (List Text × Links.Node Text) :=
  [(escapingRoot ++ ["a".toList], .directory),
    (escapingRoot ++ ["a".toList, "b".toList], .directory),
    (escapingRoot ++ ["a".toList, "b".toList, "s".toList], .link false [.up, .up]),
    (escapingRoot ++ ["q".toList],
      .link false [.into "a".toList, .into "b".toList, .into "s".toList, .up])]

def escapingHost : WorkspaceHost := ofTable escapingRoot escapingTable (by decide)

theorem escapingEntries_pass :
    assertSyncArtifactsStayWithinTarget escapingRoot [] escapingEntries = .ok () := by
  decide

theorem escapingHost_materialises : escapingHost.Materialises escapingRoot escapingEntries :=
  materialises_ofTable _ (by decide) (by decide)

/-- The target `a/b/s/..` of `q` lies in the workspace as a text; the file
system takes `..` from where `a/b/s` leads, which is the root. -/
theorem symlink_leads_outside :
    ¬∀ (host : WorkspaceHost) targetPath removed entries,
      assertSyncArtifactsStayWithinTarget targetPath removed entries = .ok () →
      host.Materialises targetPath entries → host.Contained := by
  intro h
  have hcontained := h escapingHost _ _ _ escapingEntries_pass escapingHost_materialises
  have hleads : Leads escapingHost.nodes escapingRoot
      [.into "a".toList, .into "b".toList, .into "s".toList, .up] ["home".toList] := by
    refine .into (by decide) (.into (by decide) (.through (b := false) (t := [.up, .up])
      (e := escapingRoot) (by decide) ?_ (.inr (by decide)) (.up (.here _))))
    exact .up (.up (.here _))
  have hinside := hcontained escapingRoot "q".toList false _ _ (List.prefix_refl _) (by decide) hleads
  exact absurd hinside (by decide)

theorem escapingHost_contained_iff :
    assertSyncArtifactsStayWithinTarget escapingRoot [] escapingEntries = .ok () ∧
      (escapingHost.Contained ↔ escapingHost.GoesOnInside escapingRoot) :=
  ⟨escapingEntries_pass, symlinks_contained_iff escapingEntries_pass escapingHost_materialises⟩

end WorkspaceHost

end DevPilot.Replication
