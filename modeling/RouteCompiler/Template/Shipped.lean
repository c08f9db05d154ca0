import RouteCompiler.Files.Tree

/-!
The templates of the library, line by line, and the directory they stand in.
-/

namespace RouteCompiler.Template.Shipped

/-- The description of a project. -/
def readmeLines : List String :=
  [ "# \x7b\x7b integration.name \x7d\x7d",
    "\x7b% if integration.description %\x7d",
    "",
    "\x7b\x7b integration.description \x7d\x7d",
    "\x7b% endif %\x7d",
    "",
    "This project was generated by flowgen from the integration",
    "\x7b% if integration.id %\x7d`\x7b\x7b integration.id \x7d\x7d`" ++
      "\x7b% else %\x7ddefinition\x7b% endif %\x7d.",
    "",
    "## Steps",
    "",
    "\x7b% for step in steps %\x7d",
    "\x7b\x7b loop.index \x7d\x7d. `\x7b\x7b step.kind \x7d\x7d`" ++
      "\x7b% if step.name %\x7d \x7b\x7b step.name \x7d\x7d\x7b% endif %\x7d" ++
      "\x7b% if step.action %\x7d " ++
      "(\x7b\x7b step.action.name or step.action.connector_prefix \x7d\x7d)" ++
      "\x7b% endif %\x7d",
    "",
    "\x7b% else %\x7d",
    "This integration has no steps.",
    "\x7b% endfor %\x7d",
    "",
    "## Running",
    "",
    "    mvn spring-boot:run",
    "",
    "The route definition lives in `src/main/resources/flow.yml`." ]

/-- The entry point of a project. -/
def applicationLines : List String :=
  [ "package io.flowgen.example;",
    "",
    "import org.springframework.boot.SpringApplication;",
    "import org.springframework.boot.autoconfigure.SpringBootApplication;",
    "",
    "/**",
    " * Entry point of the \"\x7b\x7b integration.name \x7d\x7d\" integration.",
    " */",
    "@SpringBootApplication",
    "public class Application \x7b",
    "",
    "    public static void main(String[] args) \x7b",
    "        SpringApplication.run(Application.class, args);",
    "    \x7d",
    "\x7d" ]

/-- The settings a project runs with. -/
def propertiesLines : List String :=
  [ "spring.application.name=\x7b\x7b integration.name \x7d\x7d",
    "spring.main.banner-mode=off",
    "camel.springboot.name=\x7b\x7b integration.id or integration.name \x7d\x7d",
    "camel.springboot.main-run-controller=true",
    "logging.level.io.flowgen.integration.runtime=INFO" ]

/-- The build descriptor of a project. -/
def pomLines : List String :=
  [ "<?xml version=\"1.0\" encoding=\"UTF-8\"?>",
    "<project xmlns=\"http://maven.apache.org/POM/4.0.0\"",
    "         xmlns:xsi=\"http://www.w3.org/2001/XMLSchema-instance\"",
    "         xsi:schemaLocation=\"http://maven.apache.org/POM/4.0.0 " ++
      "http://maven.apache.org/maven-v4_0_0.xsd\">",
    "  <modelVersion>4.0.0</modelVersion>",
    "",
    "  <groupId>io.flowgen.integrations</groupId>",
    "  <artifactId>\x7b\x7b (id or \"integration\") | e \x7d\x7d</artifactId>",
    "  <version>0.1.0</version>",
    "  <name>\x7b\x7b name | e \x7d\x7d</name>",
    "\x7b% if description %\x7d",
    "  <description>\x7b\x7b description | e \x7d\x7d</description>",
    "\x7b% endif %\x7d",
    "  <packaging>jar</packaging>",
    "",
    "  <parent>",
    "    <groupId>org.springframework.boot</groupId>",
    "    <artifactId>spring-boot-starter-parent</artifactId>",
    "    <version>3.3.4</version>",
    "    <relativePath/>",
    "  </parent>",
    "",
    "  <properties>",
    "    <java.version>17</java.version>",
    "    <camel.version>4.8.0</camel.version>",
    "  </properties>",
    "",
    "  <dependencyManagement>",
    "    <dependencies>",
    "      <dependency>",
    "        <groupId>org.apache.camel.springboot</groupId>",
    "        <artifactId>camel-spring-boot-bom</artifactId>",
    "        <version>$\x7bcamel.version\x7d</version>",
    "        <type>pom</type>",
    "        <scope>import</scope>",
    "      </dependency>",
    "    </dependencies>",
    "  </dependencyManagement>",
    "",
    "  <dependencies>",
    "    <dependency>",
    "      <groupId>org.apache.camel.springboot</groupId>",
    "      <artifactId>camel-spring-boot-starter</artifactId>",
    "    </dependency>",
    "    <dependency>",
    "      <groupId>org.apache.camel.springboot</groupId>",
    "      <artifactId>camel-yaml-dsl-starter</artifactId>",
    "    </dependency>",
    "\x7b% for connector in connectors %\x7d",
    "    <dependency>",
    "      <groupId>\x7b\x7b connector.group_id | e \x7d\x7d</groupId>",
    "      <artifactId>\x7b\x7b connector.artifact_id | e \x7d\x7d</artifactId>",
    "      <version>\x7b\x7b connector.version | e \x7d\x7d</version>",
    "    </dependency>",
    "\x7b% endfor %\x7d",
    "  </dependencies>",
    "",
    "  <build>",
    "    <plugins>",
    "      <plugin>",
    "        <groupId>org.springframework.boot</groupId>",
    "        <artifactId>spring-boot-maven-plugin</artifactId>",
    "      </plugin>",
    "    </plugins>",
    "  </build>",
    "</project>" ]

/-- Lines as the text of a file. -/
def textOf (lines : List String) : String := String.join (lines.map (· ++ "\n"))

/-- The templates by their names. -/
def files : List (String × String) :=
  [ ("README.md.jinja", textOf readmeLines),
    ("Application.java.jinja", textOf applicationLines),
    ("application.properties.jinja", textOf propertiesLines),
    ("pom.xml.jinja", textOf pomLines) ]

/-- Where the templates stand. -/
def directory : Path := ⟨"/", ["<TEMPLATES>"]⟩

/-- A file tree with the templates in it. -/
def install (t : FileTree) : FileTree :=
  files.foldl (fun t f => t.set (directory.parts ++ [f.1]) (.file f.2.toUTF8))
    (t.set directory.parts .directory)

end RouteCompiler.Template.Shipped
