import JitInspect.Host

/-!
# The sources of the loader

The loader is a small program that loads an assembly and has the selected members compiled. It is
built from two files: its code and its project, which names the framework to build for.
-/

namespace JitInspect

namespace Loader

/-- What stands for the framework in the project file. -/
def frameworkPlaceholder : Text := "%tfm%"

/-- The lines of a file. -/
def fileOfLines (ls : List String) : Text := ls.flatMap fun l => l.toList ++ ['\n']

/-- The code of the loader. -/
def code : Text := fileOfLines
  ["// Loads an assembly and asks the JIT to compile the selected members,",
   "// so DOTNET_JitDisasm / JitDump print them without running user code.",
   "//",
   "// Usage: JitscopeLoader <assembly.dll> <Namespace.Type> <member|*> <unloadable>",
   "",
   "using System;",
   "using System.IO;",
   "using System.Reflection;",
   "using System.Runtime.CompilerServices;",
   "using System.Runtime.Loader;",
   "",
   "public static class JitscopeLoader",
   "\x7b",
   "    private const BindingFlags AllMembers =",
   "        BindingFlags.Public | BindingFlags.NonPublic |",
   "        BindingFlags.Instance | BindingFlags.Static |",
   "        BindingFlags.DeclaredOnly;",
   "",
   "    public static int Main(string[] args)",
   "    \x7b",
   "        if (args.Length < 4)",
   "        \x7b",
   "            Console.Error.WriteLine(\"Usage: JitscopeLoader <assembly.dll> <type> <member|*> <unloadable>\");",
   "            return 1;",
   "        \x7d",
   "",
   "        string assemblyPath = Path.GetFullPath(args[0]);",
   "        string typeName = args[1];",
   "        string memberName = args[2];",
   "        bool unloadable = bool.Parse(args[3]);",
   "",
   "        AssemblyLoadContext context = unloadable",
   "            ? new AssemblyLoadContext(\"jitscope\", isCollectible: true)",
   "            : AssemblyLoadContext.Default;",
   "",
   "        Assembly assembly = context.LoadFromAssemblyPath(assemblyPath);",
   "",
   "        int prepared = 0;",
   "        foreach (Type type in GetLoadableTypes(assembly))",
   "        \x7b",
   "            if (!Matches(type, typeName))",
   "                continue;",
   "",
   "            foreach (MethodBase method in GetMembers(type))",
   "            \x7b",
   "                if (memberName != \"*\" && !IsSelected(method.Name, memberName))",
   "                    continue;",
   "",
   "                if (method.IsAbstract || method.ContainsGenericParameters || type.ContainsGenericParameters)",
   "                \x7b",
   "                    Console.WriteLine(\"; jitscope: skipping \x7b0\x7d.\x7b1\x7d: generic or abstract members need 'Run' mode\", type.FullName, method.Name);",
   "                    continue;",
   "                \x7d",
   "",
   "                try",
   "                \x7b",
   "                    RuntimeHelpers.PrepareMethod(method.MethodHandle);",
   "                    prepared++;",
   "                \x7d",
   "                catch (Exception e)",
   "                \x7b",
   "                    Console.WriteLine(\"; jitscope: failed to compile \x7b0\x7d.\x7b1\x7d: \x7b2\x7d\", type.FullName, method.Name, e.Message);",
   "                \x7d",
   "            \x7d",
   "        \x7d",
   "",
   "        if (prepared == 0)",
   "            Console.WriteLine(\"; jitscope: no methods were compiled for \x7b0\x7d:\x7b1\x7d\", typeName, memberName);",
   "",
   "        if (unloadable)",
   "            context.Unload();",
   "        return 0;",
   "    \x7d",
   "",
   "    private static bool Matches(Type type, string typeName)",
   "    \x7b",
   "        string fullName = type.FullName;",
   "        return fullName != null && fullName.Replace('+', '.') == typeName;",
   "    \x7d",
   "",
   "    private static bool IsSelected(string methodName, string memberName)",
   "    \x7b",
   "        return methodName == memberName",
   "            || methodName == \"get_\" + memberName",
   "            || methodName == \"set_\" + memberName;",
   "    \x7d",
   "",
   "    private static MethodBase[] GetMembers(Type type)",
   "    \x7b",
   "        MethodInfo[] methods = type.GetMethods(AllMembers);",
   "        ConstructorInfo[] ctors = type.GetConstructors(AllMembers);",
   "        MethodBase[] result = new MethodBase[methods.Length + ctors.Length];",
   "        methods.CopyTo(result, 0);",
   "        ctors.CopyTo(result, methods.Length);",
   "        return result;",
   "    \x7d",
   "",
   "    private static Type[] GetLoadableTypes(Assembly assembly)",
   "    \x7b",
   "        try",
   "        \x7b",
   "            return assembly.GetTypes();",
   "        \x7d",
   "        catch (ReflectionTypeLoadException e)",
   "        \x7b",
   "            return Array.FindAll(e.Types, t => t != null);",
   "        \x7d",
   "    \x7d",
   "\x7d"]

/-- The project file of the loader for a framework that is still to be filled in. -/
def projectTemplate : Text := fileOfLines
  ["<Project Sdk=\"Microsoft.NET.Sdk\">",
   "",
   "  <PropertyGroup>",
   "    <OutputType>Exe</OutputType>",
   "    <TargetFramework>%tfm%</TargetFramework>",
   "    <LangVersion>latest</LangVersion>",
   "    <Nullable>disable</Nullable>",
   "    <ImplicitUsings>disable</ImplicitUsings>",
   "    <OutputPath>out</OutputPath>",
   "    <AppendTargetFrameworkToOutputPath>false</AppendTargetFrameworkToOutputPath>",
   "    <AppendRuntimeIdentifierToOutputPath>false</AppendRuntimeIdentifierToOutputPath>",
   "    <RollForward>LatestMajor</RollForward>",
   "    <TieredCompilation>false</TieredCompilation>",
   "    <WarningLevel>0</WarningLevel>",
   "    <TreatWarningsAsErrors>false</TreatWarningsAsErrors>",
   "  </PropertyGroup>",
   "",
   "</Project>"]

/-- The project file of the loader for a framework. -/
def project (framework : Text) : Text := Text.replace frameworkPlaceholder framework projectTemplate

end Loader

end JitInspect
