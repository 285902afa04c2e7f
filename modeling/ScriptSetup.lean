import ScriptSetup.Main
import ScriptSetup.Proofs.Block.NestedTemplates
import ScriptSetup.Proofs.Block.TagTokens
import ScriptSetup.Proofs.Component.EventNames
import ScriptSetup.Proofs.Migration.CommentedConfig
import ScriptSetup.Proofs.Migration.MachineLines
import ScriptSetup.Proofs.Migration.Reports
import ScriptSetup.Proofs.Migration.SideBySide
import ScriptSetup.Proofs.Setup.ArrayHoles
import ScriptSetup.Proofs.Setup.ConstructorUnions
import ScriptSetup.Proofs.Setup.DeclarationOrder
import ScriptSetup.Proofs.Setup.EventMethods
import ScriptSetup.Proofs.Setup.FrameworkUse
import ScriptSetup.Proofs.Setup.FunctionNames
import ScriptSetup.Proofs.Setup.Indentation
import ScriptSetup.Proofs.Setup.KeptImports
import ScriptSetup.Proofs.Setup.KeptMembers
import ScriptSetup.Proofs.Setup.Signs
import ScriptSetup.Proofs.Setup.UndeclaredAccess
import ScriptSetup.Proofs.Text.LinePositions
