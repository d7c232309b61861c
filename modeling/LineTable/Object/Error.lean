/-
What is wrong with an object file.
-/

namespace LineTable

inductive ElfFault where
  | header
  | unsupported
  | programCount
  | programEntrySize
  | programTable
  | sectionEntrySize
  | firstSection
  | sectionTable
  | nameIndexCount
  | nameIndexMissing
  | nameIndex
  | nameTableSize
  | symbolTable
  | sectionIndex
  | stringSectionType
  | stringSection
  | symbolIndexTable
  /-- Relocations are for a section that does not exist. -/
  | relocationTarget
  /-- Relocations are for a section of relocations. -/
  | relocationNested
deriving DecidableEq, Repr

def ElfFault.message : ElfFault → String
  | header => "Invalid ELF header size or alignment"
  | unsupported => "Unsupported ELF header"
  | programCount => "Missing ELF section headers for e_phnum overflow"
  | programEntrySize => "Invalid ELF program header entry size"
  | programTable => "Invalid ELF program header size or alignment"
  | sectionEntrySize => "Invalid ELF section header entry size"
  | firstSection => "Invalid ELF section header offset or size"
  | sectionTable => "Invalid ELF section header offset/size/alignment"
  | nameIndexCount => "Missing ELF section headers for e_shstrndx overflow"
  | nameIndexMissing => "Missing ELF e_shstrndx"
  | nameIndex => "Invalid ELF e_shstrndx"
  | nameTableSize => "Invalid ELF shstrtab size"
  | symbolTable => "Invalid ELF symbol table data"
  | sectionIndex => "Invalid ELF section index"
  | stringSectionType => "Invalid ELF string section type"
  | stringSection => "Invalid ELF string section offset or size"
  | symbolIndexTable => "Invalid ELF symtab_shndx data"
  | relocationTarget => "Invalid ELF sh_info for relocation section"
  | relocationNested => "Unsupported ELF sh_info for relocation section"

inductive MachOFault where
  | header
  /-- A command is too short. -/
  | command
  | sectionCount
  | symbolTable
deriving DecidableEq, Repr

def MachOFault.message : MachOFault → String
  | header => "Invalid Mach-O header size or alignment"
  | command => "Invalid Mach-O command size"
  | sectionCount => "Invalid Mach-O number of sections"
  | symbolTable => "Invalid Mach-O symbol table offset or size"

inductive CoffFault where
  | header
  /-- The long header is not all there. -/
  | longHeader
  | sectionTable
  | symbolTable
  | stringTable
  | contents
deriving DecidableEq, Repr

def CoffFault.message : CoffFault → String
  | header => "Invalid COFF file header size or alignment"
  | longHeader => "Invalid COFF bigobj file header size or alignment"
  | sectionTable => "Invalid COFF/PE section headers"
  | symbolTable => "Invalid COFF symbol table offset or size"
  | stringTable => "Missing COFF string table"
  | contents => "Invalid COFF section offset or size"

inductive PeFault where
  /-- The header for the older system is not all there. -/
  | oldHeader
  | oldMagic
  | headers
  | magic
  | optionalMagic
  /-- The optional header is too short for its fixed part. -/
  | optionalShort
  | optionalHeader
  | directories
  | sectionTable
  | contents
deriving DecidableEq, Repr

def PeFault.message : PeFault → String
  | oldHeader => "Invalid DOS header size or alignment"
  | oldMagic => "Invalid DOS magic"
  | headers => "Invalid PE headers offset or size"
  | magic => "Invalid PE magic"
  | optionalMagic => "Invalid PE optional header magic"
  | optionalShort => "PE optional header size is too small"
  | optionalHeader => "Invalid PE optional header size"
  | directories => "Invalid PE number of RVA and sizes"
  | sectionTable => "Invalid COFF/PE section headers"
  | contents => "Invalid PE section offset or size"

inductive XcoffFault where
  | header
  | programHeader
  | sectionTable
  | symbolTable
  | stringTable
deriving DecidableEq, Repr

def XcoffFault.message : XcoffFault → String
  | header => "Invalid XCOFF header size or alignment"
  | programHeader => "Invalid XCOFF auxiliary header size"
  | sectionTable => "Invalid XCOFF section headers"
  | symbolTable => "Invalid XCOFF symbol table offset or size"
  | stringTable => "Missing XCOFF string table"

inductive ContentsFault where
  /-- A section without contents is said to be compressed. -/
  | nothingCompressed
  | nothingMarked
  | headerOutside
  | headerSize
  | compressionType
  | markShort
  | mark
  | outside
  | allocation
  | zlib
  | zstandard
  | size
deriving DecidableEq, Repr

def ContentsFault.message : ContentsFault → String
  | nothingCompressed => "Invalid ELF compressed section type"
  | nothingMarked => "Invalid ELF GNU compressed section type"
  | headerOutside => "Invalid ELF compressed section offset"
  | headerSize => "Invalid ELF compressed section size"
  | compressionType => "Unsupported ELF compression type"
  | markShort => "GNU compressed section is too short"
  | mark => "Invalid GNU compressed section header"
  | outside => "Invalid compressed data size or offset"
  | allocation => "Uncompressed data allocation failed"
  | zlib => "Invalid zlib compressed data"
  | zstandard => "Invalid zstd compressed data"
  | size => "Uncompressed data size does not match compression header"

inductive ObjectError where
  | noMagic
  | unknownMagic
  | unknownExecutable
  | unknownAnonymous
  | unsupportedFormat
  | elf (fault : ElfFault)
  | machO (fault : MachOFault)
  | coff (fault : CoffFault)
  | pe (fault : PeFault)
  | xcoff (fault : XcoffFault)
  | contents (fault : ContentsFault)
deriving DecidableEq, Repr

def ObjectError.message : ObjectError → String
  | noMagic => "Could not read file magic"
  | unknownMagic => "Unknown file magic"
  | unknownExecutable => "Unknown MS-DOS file"
  | unknownAnonymous => "Unknown anon object file"
  | unsupportedFormat => "Unsupported file format"
  | elf fault => fault.message
  | machO fault => fault.message
  | coff fault => fault.message
  | pe fault => fault.message
  | xcoff fault => fault.message
  | contents fault => fault.message

end LineTable
