import DevPilot.Lib.JsonValue
import DevPilot.Lib.Slices

/-!
The sanitiser of the desktop protocol, and which values it destroys that hold no secret.
-/

namespace DevPilot.Sanitizer

open PyJson

variable {F : Type}

/-- `str.lower`, up to characters whose lower case no marker has. -/
def lowerChar (c : Char) : List Char :=
  if c = '\u212a' then ['k']
  else if c = '\u0130' then ['i', '\u0307']
  else [c.toLower]

def lower (text : String) : List Char := text.toList.flatMap lowerChar

def sensitiveMarkers : List String :=
  ["api_key", "apikey", "token", "secret", "authorization", "password", "credential", "cookie"]

def credentialMarkers : List String := ["sk-", "bearer ", "ghp_", "glpat-"]

def containsMarker (markers : List String) (text : String) : Bool :=
  markers.any fun marker => Slices.contains (lower text) marker.toList

section

/-! Which texts are credentials and which keys name a secret. -/
variable (isCredential isSensitiveKey : String → Bool)

def redactText (text : String) : String := if isCredential text then "[redacted diagnostic]" else
    text

mutual

def redactValue : Json F → Json F
  | .obj ms => .obj (redactMembers ms)
  | .arr vs => .arr (redactItems vs)
  | .str s => .str (redactText isCredential s)
  | v => v

def redactItems : List (Json F) → List (Json F)
  | [] => []
  | v :: vs => redactValue v :: redactItems vs

def redactMembers : Members F → Members F
  | [] => []
  | (k, v) :: ms => (k, if isSensitiveKey k then .str "[redacted]" else redactValue v) ::
      redactMembers ms

end

end

/-- `sanitize_value` and `sanitize_mapping`. -/
def sanitizeValue (value : Json F) : Json F :=
  redactValue (containsMarker credentialMarkers) (containsMarker sensitiveMarkers) value

/-- The marker stands in the text between a character and another with which it may. -/
def occurs (between : Option Char → Option Char → Bool) (marker : List Char) : Option Char →
    List Char → Bool
  | _, [] => false
  | before, c :: s =>
      marker.isPrefixOf (c :: s) && between before ((c :: s).drop marker.length).head? ||
        occurs between marker (some c) s

def isCredential (text : String) : Bool :=
  credentialMarkers.any fun marker =>
    occurs (fun before _ => !before.any Char.isAlphanum) marker.toList none (lower text)

/-- A key names a secret by one of the markers; the plural `tokens` counts. -/
def namesSecret (key : String) : Bool :=
  sensitiveMarkers.any fun marker =>
    occurs (fun _ behind => !(marker == "token" && behind == some 's')) marker.toList none
      (lower key)

/-- Credentials and what stands under the name of a secret redacted, and all else as it was. -/
def withoutSecrets (value : Json F) : Json F := redactValue isCredential namesSecret value

theorem isInfix_of_occurs {between : Option Char → Option Char → Bool} {marker s : List Char}
    {before : Option Char}
    (h : occurs between marker before s = true) : marker <:+: s := by
  induction s generalizing before with
  | nil => cases h
  | cons c s ih =>
      rw [occurs, Bool.or_eq_true, Bool.and_eq_true] at h
      rcases h with ⟨h, -⟩ | h
      · exact (List.isPrefixOf_iff_prefix.mp h).isInfix
      · exact (ih h).trans (List.suffix_cons c s).isInfix

theorem containsMarker_of_isCredential {text : String} (h : isCredential text = true) :
    containsMarker credentialMarkers text = true := by
  obtain ⟨marker, hmarker, hoccurs⟩ := List.any_eq_true.mp h
  exact List.any_eq_true.mpr ⟨marker, hmarker, (Slices.contains_iff _ _).mpr
    (isInfix_of_occurs hoccurs)⟩

theorem containsMarker_of_namesSecret {key : String} (h : namesSecret key = true) :
    containsMarker sensitiveMarkers key = true := by
  obtain ⟨marker, hmarker, hoccurs⟩ := List.any_eq_true.mp h
  exact List.any_eq_true.mpr ⟨marker, hmarker, (Slices.contains_iff _ _).mpr
    (isInfix_of_occurs hoccurs)⟩

mutual

/-- Above the secrets, every text with a marker is a credential, and every key with a marker
names a secret, or what stands under it looks redacted already. -/
def MarkersTell : Json F → Prop
  | .obj ms => MarkersTellMembers ms
  | .arr vs => MarkersTellItems vs
  | .str s => containsMarker credentialMarkers s = true → isCredential s = true
  | _ => True

def MarkersTellItems : List (Json F) → Prop
  | [] => True
  | v :: vs => MarkersTell v ∧ MarkersTellItems vs

def MarkersTellMembers : Members F → Prop
  | [] => True
  | (k, v) :: ms =>
      (namesSecret k = false → if containsMarker sensitiveMarkers k then v =
        .str "[redacted]" else MarkersTell v) ∧
        MarkersTellMembers ms

end

theorem redactValue_eq_redacted_iff (v : Json F) :
    redactValue isCredential namesSecret v = .str "[redacted]" ↔ v = .str "[redacted]" := by
  cases v with
  | str s =>
      rw [redactValue, redactText, Json.str.injEq, Json.str.injEq]
      split_ifs with hs
      · refine iff_of_false (by decide) ?_
        rintro rfl
        revert hs
        decide
      · rfl
  | _ => simp [redactValue]

theorem redactText_markers_iff (s : String) :
    redactText (containsMarker credentialMarkers) s = redactText isCredential s ↔
      (containsMarker credentialMarkers s = true → isCredential s = true) := by
  rw [redactText, redactText]
  by_cases hcredential : isCredential s = true
  · rw [if_pos hcredential, if_pos (containsMarker_of_isCredential hcredential)]
    exact iff_of_true rfl fun _ => hcredential
  · rw [if_neg hcredential]
    split_ifs with hmarker
    · refine iff_of_false ?_ fun h => hcredential (h hmarker)
      rintro rfl
      revert hmarker
      decide
    · exact iff_of_true rfl fun h => absurd h hmarker

mutual

theorem redactValue_markers_iff : ∀ v : Json F,
    redactValue (containsMarker credentialMarkers) (containsMarker sensitiveMarkers) v =
      redactValue isCredential namesSecret v ↔ MarkersTell v
  | .obj ms => by
      rw [redactValue, redactValue, Json.obj.injEq, MarkersTell]
      exact redactMembers_markers_iff ms
  | .arr vs => by
      rw [redactValue, redactValue, Json.arr.injEq, MarkersTell]
      exact redactItems_markers_iff vs
  | .str s => by
      rw [redactValue, redactValue, Json.str.injEq, MarkersTell]
      exact redactText_markers_iff s
  | .null | .bool _ | .int _ | .float _ => by simp [redactValue, MarkersTell]

theorem redactItems_markers_iff : ∀ vs : List (Json F),
    redactItems (containsMarker credentialMarkers) (containsMarker sensitiveMarkers) vs =
      redactItems isCredential namesSecret vs ↔ MarkersTellItems vs
  | [] => by simp [redactItems, MarkersTellItems]
  | v :: vs => by
      rw [redactItems, redactItems, List.cons.injEq, MarkersTellItems]
      exact and_congr (redactValue_markers_iff v) (redactItems_markers_iff vs)

theorem redactMembers_markers_iff : ∀ ms : Members F,
    redactMembers (containsMarker credentialMarkers) (containsMarker sensitiveMarkers) ms =
      redactMembers isCredential namesSecret ms ↔ MarkersTellMembers ms
  | [] => by simp [redactMembers, MarkersTellMembers]
  | (k, v) :: ms => by
      rw [redactMembers, redactMembers, List.cons.injEq, MarkersTellMembers, Prod.mk.injEq,
        and_iff_right rfl]
      refine and_congr ?_ (redactMembers_markers_iff ms)
      cases hsecret : namesSecret k with
      | true =>
          rw [if_pos rfl, if_pos (containsMarker_of_namesSecret hsecret)]
          exact iff_of_true rfl fun h => absurd h (by decide)
      | false =>
          cases containsMarker sensitiveMarkers k with
          | true =>
              simp only [if_true, Bool.false_eq_true, if_false, forall_const]
              rw [eq_comm]
              exact redactValue_eq_redacted_iff v
          | false =>
              simp only [Bool.false_eq_true, if_false, forall_const]
              exact redactValue_markers_iff v

end

def taskUsage : Json Empty := .obj [("task", .str "task-1"), ("input_tokens", .int 5)]

end DevPilot.Sanitizer
