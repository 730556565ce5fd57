/-! # Modes of files

Who may do what with a file: twelve bits, of which the lowest nine let the owner, the
group and others read, write and execute it.  Programs run as the owner of every file
and have no other rights, so only the owner's three bits are ever asked for; the
others are kept because one class can be given what another one has.

Only files have modes.  A directory keeps none: everybody may list it, go through it
and change its entries. -/

namespace Keysmith

/-- The mode of a file. -/
abbrev Mode := BitVec 12

namespace Mode

/-- Whether the owner may read. -/
def reads (m : Mode) : Bool := m.getLsbD 8

/-- Whether the owner may write. -/
def writes (m : Mode) : Bool := m.getLsbD 7

/-- Whether the owner may execute. -/
def executes (m : Mode) : Bool := m.getLsbD 6

/-- Whether anyone may execute. -/
def anyExecutes (m : Mode) : Bool := (m &&& 0o111#12) != 0#12

/-- The mode of a program. -/
def program : Mode := 0o755#12

/-- The mode of a file that holds data. -/
def data : Mode := 0o644#12

/-- The mode that files are made with before a mask takes rights away. -/
def unmasked : Mode := 0o666#12

/-- The mask that lets only the owner write. -/
def usualMask : Mode := 0o022#12

/-- The mode without the rights of a mask. -/
def masked (m mask : Mode) : Mode := m &&& ~~~mask

end Mode

end Keysmith
