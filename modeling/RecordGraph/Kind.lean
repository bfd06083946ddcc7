/-!
# Kinds and node types

The kind of a node says what the node is for: structure, storage of one value, or control over a
walk. A node type is a kind together with a tag that tells types of one kind apart; the pair packs
into one word of 32 bits.
-/

namespace RecordGraph

inductive Kind where
  | base
  | list
  | composite
  | reference
  | map
  | registry
  | int
  | real
  | string
  | iterator
  | guard
  | switch
  | expr
deriving DecidableEq, Repr

namespace Kind

def all : List Kind :=
  [base, list, composite, reference, map, registry, int, real, string, iterator, guard, switch,
    expr]

theorem mem_all (kind : Kind) : kind ∈ all := by
  cases kind <;> decide

def code : Kind → UInt16
  | base => 0x00
  | list => 0x01
  | composite => 0x02
  | reference => 0x03
  | map => 0x04
  | registry => 0x05
  | int => 0x10
  | real => 0x11
  | string => 0x12
  | iterator => 0x20
  | guard => 0x21
  | switch => 0x22
  | expr => 0x23

def ofCode? (code : UInt16) : Option Kind :=
  all.find? fun kind => kind.code == code

def name : Kind → String
  | base => "base"
  | list => "list"
  | composite => "composite"
  | reference => "reference"
  | map => "map"
  | registry => "registry"
  | int => "int"
  | real => "real"
  | string => "string"
  | iterator => "iterator"
  | guard => "guard"
  | switch => "switch"
  | expr => "expr"

def ofName? (name : String) : Option Kind :=
  all.find? fun kind => kind.name == name

def isControl : Kind → Bool
  | iterator | guard | switch | expr => true
  | _ => false

def isConditional : Kind → Bool
  | guard | switch | expr => true
  | _ => false

def isStorage : Kind → Bool
  | int | real | string => true
  | _ => false

def isListLike : Kind → Bool
  | list | composite | map | registry | iterator | guard | switch => true
  | _ => false

theorem ofCode?_code (kind : Kind) : ofCode? kind.code = some kind := by
  cases kind <;> decide

end Kind

structure NodeType where
  kind : Kind
  tag : UInt16
deriving DecidableEq, Repr

namespace NodeType

def ofKind (kind : Kind) : NodeType := ⟨kind, 0⟩

def pack (nodeType : NodeType) : UInt32 :=
  nodeType.kind.code.toUInt32 <<< 16 ||| nodeType.tag.toUInt32

def unpack? (word : UInt32) : Option NodeType :=
  (Kind.ofCode? (word >>> 16).toUInt16).map fun kind => ⟨kind, word.toUInt16⟩

private theorem upper_pack (upper lower : UInt16) :
    ((upper.toUInt32 <<< 16 ||| lower.toUInt32) >>> 16).toUInt16 = upper := by
  apply UInt16.toBitVec_inj.mp
  simp only [UInt32.toBitVec_toUInt16, UInt32.toBitVec_shiftRight, UInt32.toBitVec_or,
    UInt32.toBitVec_shiftLeft, UInt16.toBitVec_toUInt32]
  ext position small
  simp
  grind

private theorem lower_pack (upper lower : UInt16) :
    (upper.toUInt32 <<< 16 ||| lower.toUInt32).toUInt16 = lower := by
  apply UInt16.toBitVec_inj.mp
  simp

theorem unpack?_pack (nodeType : NodeType) : unpack? nodeType.pack = some nodeType := by
  unfold unpack? pack
  rw [upper_pack, lower_pack, Kind.ofCode?_code]
  rfl

theorem pack_inj {left right : NodeType} : left.pack = right.pack ↔ left = right := by
  constructor
  · intro same
    have unpacked : some left = some right := by rw [← unpack?_pack, same, unpack?_pack]
    exact Option.some.inj unpacked
  · rintro rfl
    rfl

example : unpack? 0x100002 = some ⟨.int, 2⟩ := by decide

example : unpack? 0x60000 = none := by decide

end NodeType
end RecordGraph
