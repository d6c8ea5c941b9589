import Verilink.Framework.JsonEscape

/-!
# JavaScript values

The values of a JavaScript program, over the texts and the finite numbers a model needs, and what
`JSON.parse` makes of a text.
-/

namespace Verilink.Framework

/-- A double: `finite` has those other than the negative zero. -/
inductive JsNumber (F : Type)
  | nan
  | infinity (negative : Bool)
  | negZero
  | finite (x : F)
  deriving DecidableEq

def JsNumber.toFinite {F : Type} (zero : F) : JsNumber F → Option F
  | nan => none
  | infinity _ => none
  | negZero => some zero
  | finite x => some x

/-- `other` is a value of another type, by what `String` makes of it. -/
inductive JsValue (S F : Type)
  | null
  | undefined
  | bool (b : Bool)
  | number (n : JsNumber F)
  | string (s : S)
  | array (elems : List (JsValue S F))
  | object (entries : List (S × JsValue S F))
  | other (s : S)

namespace JsValue

variable {S F : Type}

def get [DecidableEq S] (v : JsValue S F) (name : S) : JsValue S F :=
  match v with
  | object entries => ((entries.find? fun e => e.1 = name).map Prod.snd).getD undefined
  | _ => undefined

/-- `v ?? dflt`. -/
def orDefault (v dflt : JsValue S F) : JsValue S F :=
  match v with
  | undefined => dflt
  | null => dflt
  | v => v

def isTruthyObject : JsValue S F → Bool
  | array _ => true
  | object _ => true
  | _ => false

end JsValue

/-! ## `JSON.parse` -/

namespace Json

mutual

/-- Of several members with one name the last counts. -/
def lastMembers : Json → Json
  | .arr elems => .arr (lastElems elems)
  | .obj fields => .obj (lastFields fields)
  | .null => .null
  | .bool b => .bool b
  | .int n => .int n
  | .frac q => .frac q
  | .str s => .str s

def lastElems : List Json → List Json
  | [] => []
  | v :: vs => lastMembers v :: lastElems vs

def lastFields : List (String × Json) → List (String × Json)
  | [] => []
  | (k, v) :: ms =>
    if ms.any fun m => m.1 = k then lastFields ms else (k, lastMembers v) :: lastFields ms

end

theorem lastElems_eq (vs : List Json) : lastElems vs = vs.map lastMembers := by
  induction vs with
  | nil => simp [lastElems]
  | cons v vs ih => simp [lastElems, ih]

theorem lastFields_eq {ms : List (String × Json)} (h : (ms.map Prod.fst).Nodup) :
    lastFields ms = ms.map fun m => (m.1, lastMembers m.2) := by
  induction ms with
  | nil => simp [lastFields]
  | cons m ms ih =>
    obtain ⟨k, v⟩ := m
    rw [List.map_cons, List.nodup_cons] at h
    have hnew : ¬ (ms.any fun m => m.1 = k) = true := by
      rw [List.any_eq_true]
      rintro ⟨m, hm, hk⟩
      obtain rfl : m.1 = k := of_decide_eq_true hk
      have hmem : m.1 ∈ ms.map Prod.fst := List.mem_map_of_mem hm
      exact h.1 hmem
    rw [lastFields, if_neg hnew, ih h.2, List.map_cons]

/-- JavaScript lists keys that are numbers before the others; the order of members is nowhere looked
at. -/
def jsParse (text : Bytes) : Option Json := (parse text).map lastMembers

end Json

end Verilink.Framework
